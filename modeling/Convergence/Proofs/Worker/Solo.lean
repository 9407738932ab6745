import Convergence.Proofs.Worker.Echoes
import Convergence.Proofs.Worker.Timers
/-!
# Controllers on their own

A `Solo` is a controller whose worker is the only one to write into the store.  It keeps a log of
the dispatches, each with the cause of the check that queued it.  What happens to it comes in any
order: messages may wait, timers may fire and checks may be asked for at any time.

The main results are

* `InOrder.step`, `InOrder.run`: echoes stay screened, and the log stays right;
* `calls_prompted`: no check by notification queues a dispatch, and every call of a handler goes
  back to a scan, to a timer or to somebody who asked.
-/

namespace Convergence

/-- The command that a worker carries out next, if it works and no call is under way. -/
def Worker.next? (w : Worker) : Option Command :=
  if w.alive && w.attempt.isNone then w.queue.head? else none

lemma Worker.next?_of_queue {w : Worker} {c : Command} {rest : List Command}
    (alive : w.alive = true) (idle : w.attempt = none) (hq : w.queue = c :: rest) :
    w.next? = some c := by
  simp [next?, alive, idle, hq]

/-- A dispatch that waits, with the cause of the check that queued it. -/
structure Errand where
  id : IntegrationId
  handler : Handler
  cause : Trigger

/-- The dispatches among commands that a check queued. -/
def Errand.among (cause : Trigger) (commands : List Command) : List Errand :=
  (commands.filterMap Command.dispatch?).map fun (id, handler) => { id, handler, cause }

/-- A controller on its own, with a log of its dispatches. -/
structure Solo where
  controller : Controller
  site : Site
  /-- The dispatches in the queue, the next one first. -/
  waiting : List Errand := []
  /-- The dispatches for which a handler was called, the latest one last. -/
  called : List Errand := []

/-- Something that happens to a controller on its own: nobody but the worker writes into the store,
and nobody but the store sends messages. -/
inductive Happening where
  /-- The listener receives a message, or ends. -/
  | listen
  /-- The worker ends its call, ends itself, or carries out the next command. -/
  | work
  /-- The timer of this number fires. -/
  | fire (serial : Nat)
  /-- Somebody asks for a check. -/
  | request (id : IntegrationId)
  /-- Somebody asks for the markers. -/
  | ask (question : Nat)
  /-- The next calls of the store will fail. -/
  | failNext (call : StoreCall) (times : Nat)
  /-- Time passes, and the backends change. -/
  | drift (environment : Environment) (clock : Timestamp) (moment : Nat)
  /-- Somebody subscribes to the announcements. -/
  | subscribe (name : String)
  /-- A subscriber takes a message. -/
  | receive (subscription : Subscription)
  /-- The owner drops the controller. -/
  | drop
  /-- The owner stops the controller. -/
  | stop
  /-- The worker of a stopped controller is out of time. -/
  | expire

namespace Solo

/-- Notes what became of the command that was next for the worker before. -/
def note (s : Solo) (before : Worker) : Solo :=
  if s.controller.worker.alive then
    match before.next? with
    | some (.check _ cause) =>
      -- what the check queued stands behind what was left of the queue
      let added := s.controller.worker.queue.drop before.queue.tail.length
      { s with waiting := s.waiting ++ Errand.among cause added }
    | some (.dispatch _ _) =>
      -- a refused dispatch leaves no call under way
      let calls := if s.controller.worker.attempt.isSome then s.waiting.take 1 else []
      { s with waiting := s.waiting.tail, called := s.called ++ calls }
    | _ => s
  else { s with waiting := [] }

/-- The controller and its site have become these. -/
def put (s : Solo) (x : Controller × Site) : Solo := { s with controller := x.1, site := x.2 }

/-- The worker, if it still works, goes on with its work. -/
def work (s : Solo) : Solo :=
  if s.controller.worker.alive then
    (s.put (s.controller.work s.site)).note s.controller.worker
  else s

/-- What happens to the bus. -/
def onBus (s : Solo) (f : Bus → Bus) : Solo :=
  { s with site := { s.site with store := { s.site.store with bus := f s.site.store.bus } } }

/-- The controller after something happened. -/
def step (s : Solo) : Happening → Solo
  | .listen => s.put (s.controller.listen s.site)
  | .work => s.work
  | .fire serial => { s with controller := s.controller.fire serial }
  | .request id =>
    match s.controller.requestCheck id with
    | .ok controller => { s with controller }
    | .error _ => s
  | .ask question =>
    if s.controller.isRunning then
      { s with controller := { s.controller with
        worker := s.controller.worker.enqueue (.listMarkers question) } }
    else s
  | .failNext call times =>
    { s with site := { s.site with store := s.site.store.failNext call times } }
  | .drift environment clock moment =>
    { s with site := { s.site with environment, clock, moment } }
  | .subscribe name => s.onBus fun bus => (bus.subscribe name).2
  | .receive subscription => s.onBus fun bus => (bus.recv subscription).2
  | .drop => { s with controller := s.controller.drop }
  | .stop =>
    let s := s.onBus fun bus => (bus.unsubscribe s.controller.worker.config.subscriberName).2
    s.put (s.controller.drop.deafen s.site)
  | .expire =>
    { s with
      controller := { s.controller with worker := s.controller.worker.halt }
      waiting := [] }

/-- The controller after all that happened. -/
def run (s : Solo) (hs : List Happening) : Solo := hs.foldl step s

/-- The worker and what it works on. -/
def workplace (s : Solo) : Workplace := ⟨s.controller.worker, s.site⟩

end Solo

/-! ## The listener -/

namespace Controller

variable {c : Controller} {site : Site}

/-- What the listener can come to: it has the worker look at a record, or ends. -/
structure Listened (c : Controller) (site : Site) (x : Controller × Site) : Prop where
  subscription : x.1.subscription = c.subscription
  records : x.2.store.records = site.store.records
  /-- Messages are only taken away. -/
  tells : ∀ id, x.2.store.Tells c.subscription id → site.store.Tells c.subscription id
  worker : x.1.worker = c.worker ∨ ∃ id, x.1.worker = c.worker.enqueue (.check id .notification) ∧
    site.store.Tells c.subscription id

lemma listened_deafen (c : Controller) (site : Site) : Listened c site (c.deafen site) where
  subscription := rfl
  records := rfl
  tells := fun _ ⟨m, hm, hchanged⟩ => ⟨m, Bus.mem_kept_leave hm, hchanged⟩
  worker := Or.inl rfl

lemma listened_hear {m : Message} {bus : Bus}
    (h : site.store.bus.recv c.subscription = (.message m, bus)) :
    Listened c site (c.hear m { site with store := { site.store with bus } }) := by
  obtain ⟨hkept, hread⟩ := Bus.mem_kept_of_recv h
  have htells : ∀ id, ({ site.store with bus } : Store).Tells c.subscription id →
      site.store.Tells c.subscription id :=
    fun _ ⟨m, hm, hchanged⟩ => ⟨m, hkept _ m hm, hchanged⟩
  rw [hear]
  split
  · exact ⟨rfl, rfl, htells, Or.inl rfl⟩
  · next id hchanged =>
    split
    · exact ⟨rfl, rfl, htells, Or.inr ⟨id, rfl, m, hread m rfl, hchanged⟩⟩
    · have hdeafen := listened_deafen c { site with store := { site.store with bus } }
      exact ⟨rfl, rfl, fun id hid => htells id (hdeafen.tells id hid), Or.inl rfl⟩

lemma listened (c : Controller) (site : Site) : Listened c site (c.listen site) := by
  rw [listen]
  split
  · exact listened_deafen c site
  · split
    · next m bus h => exact listened_hear h
    · exact ⟨rfl, rfl, fun _ hid => hid, Or.inl rfl⟩
    · exact listened_deafen c site

/-- A controller starts with the checks of a scan; nothing was announced to it. -/
lemma started {config : ControllerConfig} {registry : Registry} {begun : Site}
    (h : start config registry site = .ok (c, begun)) : ∃ records : List Integration,
      c.worker = { config, registry, queue := records.map fun i => .check i.id .scan } ∧
        begun.store.records = site.store.records ∧
        ∀ id, ¬ begun.store.Tells c.subscription id := by
  rw [start] at h
  split at h
  · cases h
  obtain ⟨records, hscan, -⟩ := Worker.scan_eq { config, registry } { site with
    store := { site.store with bus := (site.store.bus.subscribe config.subscriberName).2 } }
  simp only [Bus.subscribe] at h hscan
  rw [hscan] at h
  cases h
  refine ⟨records, rfl, by simp, ?_⟩
  rintro id ⟨m, hm, -⟩
  rw [Store.bus_fetchAll] at hm
  change m ∈ (site.store.bus.subscribe config.subscriberName).2.kept _ at hm
  rw [Bus.kept_subscribe, Bus.kept_length] at hm
  cases hm

/-- A worker that works has nothing to do, takes a step, or ends. -/
lemma work_cases (c : Controller) (site : Site) :
    ∃ p : Workplace, c.work site = ({ c with worker := p.worker }, p.site) ∧
      ((p = ⟨c.worker, site⟩ ∧ c.worker.attempt = none ∧ c.worker.queue = []) ∨
        Workplace.Stepped ⟨c.worker, site⟩ .work p ∨
        ∃ environment, p = ⟨c.worker.halt, { site with environment }⟩) := by
  rw [work]
  split
  · next a ha =>
    refine ⟨.of (c.worker.finish site a), rfl, Or.inr ?_⟩
    exact Workplace.work_cases (by simp [Workplace.work, ha])
  · next idle =>
    split
    · exact ⟨⟨c.worker.halt, site⟩, rfl, Or.inr (Or.inr ⟨site.environment, rfl⟩)⟩
    · split
      · next hq => exact ⟨⟨c.worker, site⟩, rfl, Or.inl ⟨rfl, idle, hq⟩⟩
      · next command rest hq =>
        refine ⟨.of ({ c.worker with queue := rest }.handle site command), rfl, Or.inr ?_⟩
        exact Workplace.work_cases (by simp [Workplace.work, idle, hq])

end Controller

/-! ## The log -/

namespace Solo

variable {registry : Registry} {s s' : Solo}

@[simp] lemma controller_note (s : Solo) (before : Worker) :
    (s.note before).controller = s.controller := by
  rw [note]
  split
  · split <;> rfl
  · rfl

/-- Echoes are screened, and the log is right: it lists the dispatches that wait, its latest entry
is the one of the call under way, and none goes back to a notification. -/
structure InOrder (registry : Registry) (s : Solo) : Prop where
  screened : s.workplace.Screened registry s.controller.subscription
  waiting : s.controller.worker.queue.filterMap Command.dispatch?
    = s.waiting.map fun e => (e.id, e.handler)
  called : ∀ a, s.controller.worker.attempt = some a →
    ∃ e, s.called.getLast? = some e ∧ e.id = a.id
  prompted : ∀ e ∈ s.waiting ++ s.called, e.cause ≠ .notification

section Notes

variable {before : Worker}

lemma note_of_check {id : IntegrationId} {cause : Trigger}
    (hnext : before.next? = some (.check id cause)) (alive : s.controller.worker.alive = true) :
    s.note before =
      { s with
        waiting := s.waiting ++
          Errand.among cause (s.controller.worker.queue.drop before.queue.tail.length) } := by
  simp [note, alive, hnext]

lemma note_of_dispatch {id : IntegrationId} {handler : Handler}
    (hnext : before.next? = some (.dispatch id handler))
    (alive : s.controller.worker.alive = true) :
    s.note before =
      { s with
        waiting := s.waiting.tail
        called := s.called ++
          if s.controller.worker.attempt.isSome then s.waiting.take 1 else [] } := by
  simp [note, alive, hnext]

/-- Only checks and dispatches are noted. -/
lemma note_of_other
    (hnext : before.next? = none ∨ ∃ question, before.next? = some (.listMarkers question))
    (alive : s.controller.worker.alive = true) : s.note before = s := by
  rcases hnext with hnext | ⟨question, hnext⟩
  · simp [note, alive, hnext]
  · simp [note, alive, hnext]

lemma note_of_dead (dead : s.controller.worker.alive = false) :
    s.note before = { s with waiting := [] } := by
  simp [note, dead]

end Notes

namespace InOrder

/-- What happens beside the worker keeps the log right. -/
lemma aside (h : InOrder registry s) (hwaiting : s'.waiting = s.waiting)
    (hcalled : s'.called = s.called)
    (hscreened : s'.workplace.Screened registry s'.controller.subscription)
    (hqueue : s'.controller.worker.queue.filterMap Command.dispatch?
      = s.controller.worker.queue.filterMap Command.dispatch?)
    (hattempt : ∀ a, s'.controller.worker.attempt = some a →
      s.controller.worker.attempt = some a) : InOrder registry s' := by
  refine ⟨hscreened, ?_, fun a ha => ?_, fun e he => ?_⟩
  · rw [hqueue, hwaiting, h.waiting]
  · rw [hcalled]
    exact h.called a (hattempt a ha)
  · exact h.prompted e (by rwa [hwaiting, hcalled] at he)

/-- The worker may be told to look at a record, or to list the markers. -/
lemma tell (h : InOrder registry s) {c : Command} (hdispatch : c.dispatch? = none)
    (hnotified : ∀ id, c ≠ .check id .notification) :
    InOrder registry
      { s with controller := { s.controller with worker := s.controller.worker.enqueue c } } :=
  h.aside rfl rfl (h.screened.tell hdispatch fun id hc => absurd hc (hnotified id))
    (by simp [Worker.enqueue, List.filterMap_append, hdispatch]) fun _ ha => ha

/-- The messages kept for the controller may become fewer. -/
lemma onBus (h : InOrder registry s) {f : Bus → Bus}
    (hf : ∀ m ∈ (f s.site.store.bus).kept s.controller.subscription,
      m ∈ s.site.store.bus.kept s.controller.subscription) : InOrder registry (s.onBus f) := by
  refine h.aside rfl rfl (h.screened.site rfl ?_) rfl fun _ ha => ha
  exact fun _ ⟨m, hm, hchanged⟩ => ⟨m, hf m hm, hchanged⟩

lemma listened (h : InOrder registry s) {x : Controller × Site}
    (hx : s.controller.Listened s.site x) : InOrder registry (s.put x) := by
  obtain ⟨hsubscription, hrecords, htells, hworker⟩ := hx
  have hscreened : ∀ w, Workplace.Screened registry s.controller.subscription ⟨w, s.site⟩ →
      x.1.worker = w → (s.put x).workplace.Screened registry (s.put x).controller.subscription := by
    rintro w hw rfl
    rw [show (s.put x).controller.subscription = s.controller.subscription from hsubscription]
    exact hw.site hrecords htells
  rcases hworker with hsame | ⟨id, htold, hid⟩
  · exact h.aside rfl rfl (hscreened _ h.screened hsame) (by simp [put, hsame])
      fun a ha => by simpa [put, hsame] using ha
  · have htell := h.screened.tell (c := .check id .notification) rfl fun id' hc => by
      cases hc
      exact hid
    exact h.aside rfl rfl (hscreened _ htell htold)
      (by simp [put, htold, Worker.enqueue, List.filterMap_append, Command.dispatch?])
      fun a ha => by simpa [put, htold, Worker.enqueue] using ha

/-- The worker may end, with all that was queued. -/
lemma halt (h : InOrder registry s) (environment : Environment) :
    InOrder registry
      { s with
        controller := { s.controller with worker := s.controller.worker.halt }
        site := { s.site with environment }
        waiting := [] } := by
  have hscreened : Workplace.Screened registry s.controller.subscription
      ⟨s.controller.worker.halt, { s.site with environment }⟩ :=
    h.screened.halt.site rfl fun _ ht => ht
  refine ⟨hscreened, rfl, fun a ha => ?_, fun e he => ?_⟩
  · cases ha
  · exact h.prompted e (List.mem_append_right _ (by simpa using he))

/-- The dispatches that a check queues are noted with its cause, which is no notification. -/
lemma checked (h : InOrder registry s) {id : IntegrationId} {cause : Trigger} {rest : List Command}
    {w : Worker} {site : Site} (idle : s.controller.worker.attempt = none)
    (hq : s.controller.worker.queue = .check id cause :: rest)
    (hc : Worker.Checked ({ s.controller.worker with queue := rest }.noteFired id cause)
      s.site.store id cause w)
    (hscreened : Workplace.Screened registry s.controller.subscription ⟨w, site⟩) :
    InOrder registry
      { s with
        controller := { s.controller with worker := w }
        site
        waiting := s.waiting ++ Errand.among cause (w.queue.drop rest.length) } := by
  have hold : rest.filterMap Command.dispatch? = s.waiting.map fun e => (e.id, e.handler) := by
    rw [← h.waiting, hq]
    rfl
  obtain ⟨pending, hnote⟩ :=
    Worker.noteFired_eq { s.controller.worker with queue := rest } id cause
  obtain ⟨added, hadded⟩ : ∃ added, w.queue = rest ++ added := by
    simpa [hnote] using hc.queue
  refine ⟨hscreened, ?_, fun a ha => ?_, fun e he => ?_⟩
  · simp only [hadded, List.drop_left, List.filterMap_append, hold, List.map_append]
    simp [Errand.among, Function.comp_def]
  · have hattempt : w.attempt = s.controller.worker.attempt := by simpa [hnote] using hc.attempt
    simp [hattempt, idle] at ha
  · rw [List.append_assoc, List.mem_append, List.mem_append] at he
    rcases he with hwaits | hnew | hcalled
    · exact h.prompted e (List.mem_append_left _ hwaits)
    · -- a check by notification adds nothing
      obtain ⟨x, hx, rfl⟩ := List.mem_map.1 hnew
      rintro rfl
      simp [h.screened.queue_of_checked hq hc] at hx
    · exact h.prompted e (List.mem_append_right _ hcalled)

/-- A dispatch that is carried out is the one noted first. -/
lemma begun (h : InOrder registry s) {id : IntegrationId} {handler : Handler} {rest : List Command}
    {x : Worker × Site} (idle : s.controller.worker.attempt = none)
    (hq : s.controller.worker.queue = .dispatch id handler :: rest)
    (hb : Worker.Begun { s.controller.worker with queue := rest } s.site id handler x)
    (hscreened : Workplace.Screened registry s.controller.subscription (.of x)) :
    InOrder registry
      { s with
        controller := { s.controller with worker := x.1 }
        site := x.2
        waiting := s.waiting.tail
        called := s.called ++ if x.1.attempt.isSome then s.waiting.take 1 else [] } := by
  obtain ⟨e, later, hwaiting, ⟨hid, -⟩, hlater⟩ : ∃ e later, s.waiting = e :: later ∧
      (id = e.id ∧ handler = e.handler) ∧
        rest.filterMap Command.dispatch? = later.map fun e => (e.id, e.handler) := by
    have hold := h.waiting
    cases hw : s.waiting with
    | nil => simp [hq, hw, Command.dispatch?] at hold
    | cons e later => exact ⟨e, later, rfl, by simpa [hq, hw, Command.dispatch?] using hold⟩
  refine ⟨hscreened, ?_, fun a ha => ?_, fun e' he' => ?_⟩
  · simp only [hb.queue, hwaiting, List.tail_cons, hlater]
  · rcases hb.attempt ha with hold | hmade
    · simp [idle] at hold
    · exact ⟨e, by simp [show x.1.attempt = some a from ha, hwaiting], hid ▸ hmade.symm⟩
  · rw [List.mem_append, List.mem_append] at he'
    rcases he' with hwaits | hcalled | hcalled
    · exact h.prompted e' (List.mem_append_left _ (List.mem_of_mem_tail hwaits))
    · exact h.prompted e' (List.mem_append_right _ hcalled)
    · split at hcalled
      · exact h.prompted e' (List.mem_append_left _ (List.mem_of_mem_take hcalled))
      · cases hcalled

/-- What the worker does keeps the log right. -/
theorem work (h : InOrder registry s) (hr : registry.Sound) : InOrder registry s.work := by
  rw [Solo.work]
  split
  swap
  · exact h
  next alive =>
  obtain ⟨p, hwork, ⟨rfl, idle, hq⟩ | hs | ⟨environment, rfl⟩⟩ := s.controller.work_cases s.site
  · -- there is nothing to do
    have hnext : s.controller.worker.next? = none := by simp [Worker.next?, alive, idle, hq]
    rw [hwork, note_of_other (Or.inl hnext) ?_]
    · exact h
    · exact alive
  · have hscreened := h.screened.work hr hs
    rw [hwork]
    cases hs with
    | @concluded a o environment ha hf r store hrun =>
      replace ha : s.controller.worker.attempt = some a := ha
      have hnext : s.controller.worker.next? = none := by simp [Worker.next?, ha]
      obtain ⟨failures, htally⟩ :=
        Worker.tally_eq { s.controller.worker with attempt := none } a.id r
      simp only [Workplace.of, Worker.arm, htally] at hscreened ⊢
      rw [note_of_other (Or.inl hnext) ?_]
      · refine h.aside rfl rfl hscreened rfl fun a ha => ?_
        cases ha
      · exact alive
    | @checked id cause rest w idle hq hc =>
      replace hq : s.controller.worker.queue = .check id cause :: rest := hq
      obtain ⟨pending, hnote⟩ :=
        Worker.noteFired_eq { s.controller.worker with queue := rest } id cause
      rw [note_of_check (Worker.next?_of_queue alive idle hq) ?_, hq, List.tail_cons]
      · exact h.checked idle hq hc hscreened
      · show w.alive = true
        rw [hc.alive, hnote]
        exact alive
    | @begun id handler rest x idle hq hb =>
      rw [note_of_dispatch (Worker.next?_of_queue alive idle hq) ?_]
      · exact h.begun idle hq hb hscreened
      · exact hb.alive.trans alive
    | @answered question rest idle hq =>
      have hnext := Worker.next?_of_queue alive idle hq
      rw [note_of_other (Or.inr ⟨question, hnext⟩) ?_]
      · refine h.aside rfl rfl hscreened ?_ fun _ ha => ha
        rw [show s.controller.worker.queue = _ from hq]
        rfl
      · exact alive
    | told hc => cases hc
  · rw [hwork, note_of_dead ?_]
    · exact h.halt environment
    · rfl

/-- Whatever happens keeps the log right. -/
theorem step (h : InOrder registry s) (hr : registry.Sound) (x : Happening) :
    InOrder registry (s.step x) := by
  cases x with
  | listen => exact h.listened (s.controller.listened s.site)
  | work => exact h.work hr
  | fire serial =>
    simp only [Solo.step, Controller.fire]
    split
    · next t _ =>
      have htell := h.tell (c := .check t.id .followUp) rfl (by simp)
      refine htell.aside rfl rfl ?_ rfl fun _ ha => ha
      exact htell.screened.mono rfl rfl rfl (fun _ ha => ha) (fun _ _ hc => hc) fun _ he => he
    · exact h
  | request id =>
    simp only [Solo.step, Controller.requestCheck]
    split
    · next c hc =>
      split at hc
      · cases hc
        exact h.tell rfl (by simp)
      · cases hc
    · exact h
  | ask question =>
    simp only [Solo.step]
    split
    · exact h.tell rfl (by simp)
    · exact h
  | failNext call times =>
    exact h.aside rfl rfl (h.screened.site rfl fun _ ht => ht) rfl fun _ ha => ha
  | drift environment clock moment =>
    exact h.aside rfl rfl (h.screened.site rfl fun _ ht => ht) rfl fun _ ha => ha
  | subscribe name =>
    exact h.onBus (f := fun bus => (bus.subscribe name).2) fun m hm => by
      rwa [Bus.kept_subscribe] at hm
  | receive subscription =>
    exact h.onBus (f := fun bus => (bus.recv subscription).2) fun m hm =>
      (Bus.mem_kept_of_recv rfl).1 _ m hm
  | drop => exact h.aside rfl rfl h.screened rfl fun _ ha => ha
  | stop =>
    have hunsubscribed := h.onBus
      (f := fun bus => (bus.unsubscribe s.controller.worker.config.subscriberName).2)
      fun m hm => by rwa [Bus.kept_unsubscribe] at hm
    obtain ⟨hsubscription, hrecords, htells, hworker⟩ := Controller.listened_deafen
      s.controller.drop (s.onBus fun bus =>
        (bus.unsubscribe s.controller.worker.config.subscriberName).2).site
    exact hunsubscribed.listened ⟨hsubscription, hrecords, htells, hworker⟩
  | expire => exact h.halt s.site.environment

theorem run (h : InOrder registry s) (hr : registry.Sound) (hs : List Happening) :
    InOrder registry (s.run hs) := by
  induction hs generalizing s with
  | nil => exact h
  | cons x rest ih => exact ih (h.step hr x)

end InOrder

/-- A check by notification adds nothing to the queue. -/
theorem InOrder.queue_step (h : InOrder registry s) {id : IntegrationId}
    (hnext : s.controller.worker.next? = some (.check id .notification)) :
    (s.step .work).controller.worker.queue <+: s.controller.worker.queue.tail := by
  obtain ⟨⟨alive, idle⟩, hhead⟩ : (s.controller.worker.alive = true ∧
      s.controller.worker.attempt = none) ∧
        s.controller.worker.queue.head? = some (.check id .notification) := by
    simpa [Worker.next?] using hnext
  obtain ⟨rest, hq⟩ := List.head?_eq_some_iff.1 hhead
  rw [hq, List.tail_cons]
  obtain ⟨p, hwork, hcases⟩ := s.controller.work_cases s.site
  have hqueue : (s.step .work).controller.worker.queue = p.worker.queue := by
    simp [Solo.step, Solo.work, alive, hwork, put]
  rw [hqueue]
  rcases hcases with ⟨-, -, hnone⟩ | hs | ⟨environment, rfl⟩
  · simp [hq] at hnone
  · cases hs with
    | concluded ha => simp [idle] at ha
    | checked _ hq' hc =>
      cases hq.symm.trans hq'
      exact h.screened.queue_of_checked hq hc ▸ List.prefix_rfl
    | begun _ hq' => simp [hq] at hq'
    | answered _ hq' => simp [hq] at hq'
    | told hc => cases hc
  · exact List.nil_prefix

/-- A controller begins with the checks of a scan, and has heard nothing. -/
lemma inOrder_start {config : ControllerConfig} {site begun : Site} {c : Controller}
    (hk : site.store.Keyed) (hstart : Controller.start config registry site = .ok (c, begun)) :
    InOrder registry { controller := c, site := begun } := by
  obtain ⟨records, hworker, hrecords, hsilent⟩ := Controller.started hstart
  have hdispatch : (records.map fun i => Command.check i.id .scan).filterMap Command.dispatch?
      = [] := by
    simp [List.filterMap_map, Command.dispatch?, Function.comp_def]
  refine ⟨⟨by simp [workplace, hworker], hk.congr hrecords, fun id h i hc => ?_, fun a i d ha => ?_,
    fun id i d he => ?_⟩, by simpa [hworker] using hdispatch, fun a ha => ?_, fun e he => ?_⟩
  · simp [workplace, hworker] at hc
  · simp [workplace, hworker] at ha
  · rcases he with hc | htells
    · simp [workplace, hworker] at hc
    · exact absurd htells (hsilent id)
  · simp [hworker] at ha
  · simp at he

/-- **The controller does not feed on its own writes.**  Whatever happens while only its worker
writes into the store, a check by notification adds nothing to the queue.  The log lists the
dispatches in the queue and the call under way, and each goes back to a scan, to a timer or to
somebody who asked. -/
theorem calls_prompted {handlers : List Handler} (hr : Registry.ofHandlers handlers = .ok registry)
    {config : ControllerConfig} {site begun : Site} (hk : site.store.Keyed) {c : Controller}
    (hstart : Controller.start config registry site = .ok (c, begun)) (hs : List Happening) :
    let s := run { controller := c, site := begun } hs
    (∀ id, s.controller.worker.next? = some (.check id .notification) →
      (s.step .work).controller.worker.queue <+: s.controller.worker.queue.tail) ∧
    s.controller.worker.queue.filterMap Command.dispatch?
      = s.waiting.map (fun e => (e.id, e.handler)) ∧
    (∀ a, s.controller.worker.attempt = some a →
      ∃ e, s.called.getLast? = some e ∧ e.id = a.id) ∧
    ∀ e ∈ s.waiting ++ s.called, e.cause = .scan ∨ e.cause = .followUp ∨ e.cause = .manual := by
  intro s
  have horder : InOrder registry s :=
    (inOrder_start hk hstart).run (Registry.sound_ofHandlers hr) hs
  refine ⟨fun id hnext => horder.queue_step hnext, horder.waiting, horder.called, fun e he => ?_⟩
  have hprompted := horder.prompted e he
  generalize e.cause = cause at hprompted ⊢
  cases cause <;> simp_all

/-! ## A record that is never as wanted -/

/-- A handler that always reports the state draft. -/
def stubbornHandler : Handler :=
  .scripted 0 "stubborn" [.active]
    [{ outcome := .report { version := 1, state := .draft, failed := true } }]

/-- The registry of that handler. -/
def stubbornRegistry : Registry := ⟨[(.active, stubbornHandler)]⟩

/-- The record is checked, the handler is called, its report is written, and the worker hears of
that. -/
def hearing : List Happening := [.work, .work, .work, .listen]

/-- The command is a check by notification. -/
def isEcho : Command → Bool
  | .check _ .notification => true
  | _ => false

/-- The check of the echo is next for the worker then, and adds nothing to the empty queue; the call
goes back to the scan. -/
theorem echo_of_stubborn : ∃ c begun,
    Controller.start {} stubbornRegistry Workplace.draftedSite = .ok (c, begun) ∧
    let s := run { controller := c, site := begun } hearing
    s.controller.worker.queue.length = 1 ∧ s.called.length = 1 ∧
    (s.step .work).controller.worker.queue = [] ∧
    ∀ e ∈ s.called, e.cause = .scan ∨ e.cause = .followUp ∨ e.cause = .manual := by
  have hregistry : Registry.ofHandlers [stubbornHandler] = .ok stubbornRegistry := rfl
  have hk : Workplace.draftedSite.store.Keyed := Store.keyed_singleton Workplace.draftedRecord
  have hend : (Controller.start {} stubbornRegistry Workplace.draftedSite).toOption.any (fun x =>
      let s := run { controller := x.1, site := x.2 } hearing
      s.controller.worker.next?.any isEcho && s.controller.worker.queue.length == 1 &&
        s.called.length == 1) = true := by decide +kernel
  cases hstart : Controller.start {} stubbornRegistry Workplace.draftedSite with
  | error e => simp [hstart, Except.toOption] at hend
  | ok x =>
    obtain ⟨c, begun⟩ := x
    simp only [hstart, Except.toOption, Option.any_some, Bool.and_eq_true, beq_iff_eq] at hend
    obtain ⟨⟨hecho, hone⟩, hcalled⟩ := hend
    obtain ⟨command, hnext, his⟩ := (Option.any_eq_true _ _).1 hecho
    obtain ⟨hqueue, -, -, hcauses⟩ := calls_prompted hregistry hk hstart hearing
    refine ⟨c, begun, rfl, hone, hcalled, ?_, fun e he => hcauses e (List.mem_append_right _ he)⟩
    obtain ⟨id, rfl⟩ : ∃ id, command = .check id .notification := by
      unfold isEcho at his
      split at his
      · exact ⟨_, rfl⟩
      · cases his
    have hprefix := hqueue id hnext
    have htail : (run { controller := c, site := begun } hearing).controller.worker.queue.tail
        = [] := by
      rw [← List.length_eq_zero_iff, List.length_tail, hone]
    rw [htail] at hprefix
    exact List.prefix_nil.1 hprefix

end Solo

end Convergence
