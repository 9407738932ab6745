import Convergence.Reconcile.Controller
/-!
# Controllers running side by side

A `World` holds controllers and what they share, and runs them one step at a time in virtual time:
time passes only when nobody has anything to do.

Who has something to do waits in a line.  The first in line goes on until it has nothing to do;
those that get something to do meanwhile join at the end: first timers and calls whose time has
come, in the order in which they were set, then listeners, then workers.
-/

namespace Convergence

/-- Somebody who may have something to do; controllers are known by their numbers. -/
inductive Task where
  | listener (controller : Nat)
  | worker (controller : Nat)
  | timer (controller serial : Nat)
deriving DecidableEq, Repr

/-- Controllers and what they share. -/
structure World where
  site : Site
  /-- What new controllers are started with. -/
  registry : Registry := {}
  controllers : List Controller := []
  /-- Who waits in line. -/
  line : List Task := []

namespace World

/-- The controllers with their numbers. -/
def numbered (w : World) : List (Nat × Controller) :=
  w.controllers.zipIdx.map fun (c, k) => (k, c)

/-- Changes one controller and what is shared. -/
def update (w : World) (k : Nat) (f : Controller → Site → Controller × Site) : World :=
  match w.controllers[k]? with
  | none => w
  | some c =>
    let (c, site) := f c w.site
    { w with site, controllers := w.controllers.set k c }

/-! ## Who has something to do -/

/-- The timers and calls of a controller: the number of each, when it is due, and whose it is. -/
def alarmsOf (k : Nat) (c : Controller) : List (Nat × Nat × Task) :=
  c.worker.timers.map (fun t => (t.serial, t.due, .timer k t.serial))
    ++ c.worker.attempt.toList.map (fun a => (a.serial, a.due, .worker k))

/-- The timers and calls of all controllers, in the order in which they were set. -/
def alarms (w : World) : List (Nat × Nat × Task) :=
  (w.numbered.flatMap fun (k, c) => alarmsOf k c).mergeSort fun a b => a.1 ≤ b.1

/-- Who has something to do now, in the order in which they join the line. -/
def enabled (w : World) : List Task :=
  (w.alarms.filter (fun a => a.2.1 ≤ w.site.moment)).map (·.2.2)
    ++ (w.numbered.filter (fun c => c.2.canListen w.site)).map (.listener ·.1)
    ++ (w.numbered.filter (fun c => c.2.canWork w.site)).map (.worker ·.1)

/-- The line with those that now have something to do. -/
def gather (w : World) : List Task :=
  w.enabled.foldl (fun line t => if line.contains t then line else line ++ [t]) w.line

/-! ## Running -/

/-- What somebody does next. -/
def act (w : World) : Task → World
  | .listener k => w.update k Controller.listen
  | .worker k => w.update k Controller.work
  | .timer k serial => w.update k fun c site => (c.fire serial, site)

/-- One step: the first in line acts, or leaves the line if it has nothing to do.  None if nobody
has. -/
def step? (w : World) : Option World :=
  match w.gather with
  | [] => none
  | t :: rest =>
    if w.enabled.contains t then some ({ w with line := t :: rest }.act t)
    else some { w with line := rest }

/-- Runs until nobody has anything to do, for at most so many steps. -/
def settle : (fuel : Nat) → World → World
  | 0, w => w
  | fuel + 1, w =>
    match w.step? with
    | some w => settle fuel w
    | none => w

/-- When the next timer or call is due. -/
def nextDue? (w : World) : Option Nat := (w.alarms.map (·.2.1)).min?

/-- Lets time pass to a moment, which is not before now. -/
def passTo (w : World) (moment : Nat) : World :=
  { w with site := { w.site with moment := max w.site.moment moment } }

/-- Runs up to a moment: all that is due until then happens at its own time. -/
def runTo (fuel : Nat) : (rounds : Nat) → (moment : Nat) → World → World
  | 0, _, w => w
  | rounds + 1, moment, w =>
    let w := w.settle fuel
    match w.nextDue? with
    | some due => if due ≤ moment then runTo fuel rounds moment (w.passTo due) else w.passTo moment
    | none => w.passTo moment

/-- Runs, and lets time pass, until there is an answer or nothing is due before the limit. -/
def runUntil {α : Type} (fuel : Nat) (answer? : World → Option α) (limit? : Option Nat) :
    (rounds : Nat) → World → Option α × World
  | 0, w => (none, w)
  | rounds + 1, w =>
    let w := w.settle fuel
    match answer? w with
    | some a => (some a, w)
    | none =>
      match w.nextDue? with
      | some due =>
        if limit?.all (due < ·) then runUntil fuel answer? limit? rounds (w.passTo due)
        else (none, w)
      | none => (none, w)

/-- The steps that are taken at most at one moment, and the moments that pass at most in one
call. -/
def bound : Nat := 1000000

/-! ## What owners of controllers do -/

/-- Starts a controller; it gets the next number. -/
def start (w : World) (config : ControllerConfig) : Except ReconcileError Nat × World :=
  match Controller.start config w.registry w.site with
  | .error e => (.error e, w)
  | .ok (c, site) =>
    (.ok w.controllers.length, { w with site, controllers := w.controllers ++ [c] })

/-- Asks a controller for a check. -/
def requestCheck (w : World) (k : Nat) (id : IntegrationId) : Except ReconcileError Unit × World :=
  match w.controllers[k]? with
  | none => (.error .controllerStopped, w)
  | some c =>
    match c.requestCheck id with
    | .error e => (.error e, w)
    | .ok c => (.ok (), { w with controllers := w.controllers.set k c })

/-- The answer of a controller to a question, or that there will be none. -/
def answer? (k question : Nat) (w : World) : Option (Except ReconcileError (List Marker)) :=
  match w.controllers[k]? with
  | none => some (.error .controllerStopped)
  | some c =>
    match c.worker.answers.find? (·.1 == question) with
    | some (_, markers) => some (.ok markers)
    | none => if c.isRunning then none else some (.error .controllerStopped)

/-- The markers of a controller, once it has done all that was queued before. -/
def inFlight (w : World) (k : Nat) : Except ReconcileError (List Marker) × World :=
  match w.controllers[k]? with
  | none => (.error .controllerStopped, w)
  | some c =>
    if c.isRunning then
      let question := c.worker.answers.length
      let c := { c with worker := c.worker.enqueue (.listMarkers question) }
      let (answer, w) :=
        runUntil bound (answer? k question) none bound
          { w with controllers := w.controllers.set k c }
      (answer.getD (.error .controllerStopped), w)
    else (.error .controllerStopped, w)

/-- The worker of a controller has ended. -/
def ended? (k : Nat) (w : World) : Option Unit :=
  if w.controllers[k]?.any (·.worker.alive) then none else some ()

/-- Stops a controller: it no longer listens, and its worker may finish the command under way, but
is ended when the time for that is over. -/
def stop (w : World) (k : Nat) : World :=
  match w.controllers[k]? with
  | none => w
  | some c =>
    let config := c.worker.config
    let store := w.site.store
    let site := { w.site with
      store := { store with bus := (store.bus.unsubscribe config.subscriberName).2 } }
    let (c, site) := c.drop.deafen site
    let limit := site.moment + Worker.milliseconds config.shutdownTimeout
    match runUntil bound (ended? k) (some limit) bound
        { w with site, controllers := w.controllers.set k c } with
    | (some (), w) => w
    | (none, w) =>
      (w.passTo limit).update k fun c site => ({ c with worker := c.worker.halt }, site)

/-- Drops a controller without waiting for it. -/
def drop (w : World) (k : Nat) : World := w.update k fun c site => (c.drop, site)

end World

end Convergence
