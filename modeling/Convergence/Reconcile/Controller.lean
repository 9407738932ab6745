import Convergence.Reconcile.Worker
/-!
# Controllers

A controller is a worker with a subscription to the announcements of the store.  Its listener turns
every announced change of an integration into a check by notification.
-/

namespace Convergence

/-- A controller. -/
structure Controller where
  worker : Worker
  subscription : Subscription
  /-- The listener still listens. -/
  listening : Bool := true
  /-- The controller was told to end: after the command under way it does. -/
  leaving : Bool := false
  /-- The controller was not stopped or dropped by its owner. -/
  held : Bool := true

namespace Controller

/-- The integration that a message reports as changed, if it reports one. -/
def changed? (m : Message) : Option IntegrationId :=
  if m.topic = ChangeEvent.topic then
    match ChangeEvent.decode m.data with
    | .ok e => e.integrationId?
    | .error _ => none
  else none

/-- Subscribes to the announcements and checks every record. -/
def start (config : ControllerConfig) (registry : Registry) (site : Site) :
    Except ReconcileError (Controller × Site) :=
  match config.validate with
  | .error e => .error e
  | .ok () =>
    let (subscription, bus) := site.store.bus.subscribe config.subscriberName
    let (worker, site) :=
      ({ config, registry } : Worker).scan { site with store := { site.store with bus } }
    .ok ({ worker, subscription }, site)

/-! ## The listener -/

/-- Ends the listener, and with it the subscriber's end of the subscription. -/
def deafen (c : Controller) (site : Site) : Controller × Site :=
  ({ c with listening := false },
    { site with store := { site.store with bus := site.store.bus.leave c.subscription } })

/-- The listener has something to do. -/
def canListen (c : Controller) (site : Site) : Bool :=
  c.listening && (c.leaving || (site.store.bus.recv c.subscription).1 ≠ .empty)

/-- What the listener does with one message. -/
def hear (c : Controller) (m : Message) (site : Site) : Controller × Site :=
  match changed? m with
  | none => (c, site)
  | some id =>
    if c.worker.alive then
      ({ c with worker := c.worker.enqueue (.check id .notification) }, site)
    else c.deafen site

/-- The listener receives one message, or ends. -/
def listen (c : Controller) (site : Site) : Controller × Site :=
  if c.leaving then c.deafen site
  else
    match site.store.bus.recv c.subscription with
    | (.message m, bus) => c.hear m { site with store := { site.store with bus } }
    | (.empty, _) => (c, site)
    | (_, _) => c.deafen site

/-! ## The worker -/

/-- The worker has something to do. -/
def canWork (c : Controller) (site : Site) : Bool :=
  c.worker.alive &&
    match c.worker.attempt with
    | some a => decide (a.due ≤ site.moment)
    | none => c.leaving || !c.worker.queue.isEmpty

/-- The worker ends its call, ends itself, or carries out the next command. -/
def work (c : Controller) (site : Site) : Controller × Site :=
  match c.worker.attempt with
  | some a =>
    let (worker, site) := c.worker.finish site a
    ({ c with worker }, site)
  | none =>
    if c.leaving then ({ c with worker := c.worker.halt }, site)
    else
      match c.worker.queue with
      | [] => (c, site)
      | command :: rest =>
        let (worker, site) := { c.worker with queue := rest }.handle site command
        ({ c with worker }, site)

/-- A timer of the worker fires. -/
def fire (c : Controller) (serial : Nat) : Controller :=
  match c.worker.timers.find? (·.serial == serial) with
  | some t => { c with worker := c.worker.fire t }
  | none => c

/-! ## What its owner does -/

/-- Asks for a check. -/
def requestCheck (c : Controller) (id : IntegrationId) : Except ReconcileError Controller :=
  if c.held && c.worker.alive then
    .ok { c with worker := c.worker.enqueue (.check id .manual) }
  else .error .controllerStopped

/-- The worker still works. -/
def isRunning (c : Controller) : Bool := c.held && c.worker.alive

/-- The owner drops the controller. -/
def drop (c : Controller) : Controller := { c with leaving := true, held := false }

end Controller

end Convergence
