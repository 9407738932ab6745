import Convergence.Config.Controller
import Convergence.Reconcile.Marker
import Convergence.Reconcile.Registry
import Convergence.Store.Store
/-!
# The worker

The worker takes commands from a queue, one at a time.  A check looks at a record and queues a
dispatch if the record is not as it is wanted; a dispatch calls the handler of the wanted state,
takes over what it reports, and arms a timer for a follow-up check.

A marker is held from the dispatch until the record is as wanted, and keeps notifications of the
worker's own writes from starting another attempt.

A dispatch has two parts, because a handler may take time: `Worker.begin` reads the record and calls
the handler, `Worker.finish` takes over what the handler reports.
-/

namespace Convergence

/-- What causes a check. -/
inductive Trigger where
  /-- The store announced a change. -/
  | notification
  /-- The worker starts. -/
  | scan
  /-- A timer armed by an attempt has fired. -/
  | followUp
  /-- Somebody asked for it. -/
  | manual
deriving DecidableEq, Repr

/-- The name of a cause. -/
def Trigger.name : Trigger → String
  | .notification => "notification"
  | .scan => "scan"
  | .followUp => "follow-up"
  | .manual => "manual"

/-- What the worker is told to do. -/
inductive Command where
  /-- Look at a record. -/
  | check (id : IntegrationId) (trigger : Trigger)
  /-- Call a handler for a record. -/
  | dispatch (id : IntegrationId) (handler : Handler)
  /-- List the markers, as the answer to a question of this number. -/
  | listMarkers (question : Nat)

/-- A timer that has not fired yet. -/
structure Timer where
  /-- Timers and calls are numbered in the order in which they are set. -/
  serial : Nat
  id : IntegrationId
  /-- Milliseconds since the start. -/
  due : Nat
deriving DecidableEq, Repr

/-- A call of a handler under way. -/
structure Attempt where
  id : IntegrationId
  finish : Environment → Outcome × Environment
  serial : Nat
  /-- Milliseconds since the start. -/
  due : Nat

/-- What workers share. -/
structure Site where
  store : Store := {}
  environment : Environment := {}
  /-- What the clock shows. -/
  clock : Timestamp
  /-- Milliseconds since the start. -/
  moment : Nat := 0
  /-- How many timers and calls were numbered. -/
  serials : Nat := 0
  /-- The ids that are made up, in order. -/
  idAt : Nat → IntegrationId := fun _ => ""
  /-- How many ids were made up. -/
  issued : Nat := 0

/-- A worker. -/
structure Worker where
  config : ControllerConfig := {}
  registry : Registry := {}
  /-- The commands that wait, the next one first. -/
  queue : List Command := []
  markers : Markers := .none
  /-- How many attempts in a row have failed. -/
  failures : Dict Nat := .empty
  /-- The timers that have not fired, the earliest set first. -/
  timers : List Timer := []
  /-- The timer last set for each integration, until its check. -/
  pending : Dict Nat := .empty
  /-- The call under way. -/
  attempt : Option Attempt := none
  /-- The answers given, by the numbers of the questions. -/
  answers : List (Nat × List Marker) := []
  /-- The worker still works. -/
  alive : Bool := true

namespace Worker

/-- Adds a command at the end of the queue. -/
def enqueue (w : Worker) (c : Command) : Worker := { w with queue := w.queue ++ [c] }

/-- Ends the worker; what was queued or set is dropped. -/
def halt (w : Worker) : Worker :=
  { w with alive := false, queue := [], timers := [], attempt := none }

/-! ## Checks -/

/-- Queues a check of every record. -/
def scan (w : Worker) (site : Site) : Worker × Site :=
  match site.store.fetchAll with
  | (.ok records, store) =>
    (records.foldl (fun w i => w.enqueue (.check i.id .scan)) w, { site with store })
  | (.error _, store) => (w, { site with store })

/-- Queues a dispatch if the record is not as it is wanted and there is a handler for that. -/
def check (w : Worker) (i : Integration) : Worker :=
  match i.desired with
  | none => w
  | some desired =>
    if i.isConverged then
      { w with markers := w.markers.eraseId i.id, failures := w.failures.erase i.id }
    else
      match w.registry.lookup? desired with
      | none => w
      | some handler => w.enqueue (.dispatch i.id handler)

/-- An attempt to bring the record to what is wanted is under way. -/
def isUnderWay (w : Worker) (i : Integration) (id : IntegrationId) : Bool :=
  i.desired.any fun desired => w.markers.contains { desired, id }

/-- Looks at a record.  A notification during an attempt is left to the follow-up check. -/
def handleCheck (w : Worker) (site : Site) (id : IntegrationId) (trigger : Trigger) :
    Worker × Site :=
  let w := if trigger = .followUp then { w with pending := w.pending.erase id } else w
  match site.store.fetch id with
  | (.ok (some i), store) =>
    (if trigger = .notification && w.isUnderWay i id then w else w.check i, { site with store })
  | (.ok none, store) => (w, { site with store })
  | (.error _, store) => (w, { site with store })

/-! ## Failures and follow-ups -/

/-- The most failures that are counted. -/
def mostFailures : Nat := UInt32.size - 1

/-- How many attempts in a row have failed. -/
def failuresOf (w : Worker) (id : IntegrationId) : Nat := (w.failures.find? id).getD 0

/-- Counts a failure. -/
def countFailure (w : Worker) (id : IntegrationId) : Worker :=
  { w with failures := w.failures.insert id (min (w.failuresOf id + 1) mostFailures) }

/-- The milliseconds of a duration; a part of one counts as a whole one. -/
def milliseconds (d : Duration) : Nat := (d.nanos + 999999) / 1000000

/-- How long to wait before the follow-up check. -/
def followUpDelay (w : Worker) (id : IntegrationId) : Duration :=
  w.config.retry.delay w.config.recheckInterval (w.failuresOf id)

/-- Sets a timer for a follow-up check, in place of the one set last. -/
def arm (w : Worker) (site : Site) (id : IntegrationId) : Worker × Site :=
  let timer : Timer :=
    { serial := site.serials, id, due := site.moment + milliseconds (w.followUpDelay id) }
  let kept := w.timers.filter fun t => w.pending.find? id ≠ some t.serial
  ({ w with timers := kept ++ [timer], pending := w.pending.insert id timer.serial },
    { site with serials := site.serials + 1 })

/-! ## Dispatches -/

/-- The record and the state to bring it to, unless the dispatch is out of date. -/
def target? (handler : Handler) (record : Option Integration) : Option (Integration × State) :=
  match record with
  | none => none
  | some i =>
    match i.desired with
    | none => none
    | some desired =>
      if i.isConverged || !handler.handles desired then none else some (i, desired)

/-- Drops the markers that a dispatch out of date leaves without an end. -/
def dropStale (w : Worker) (record : Option Integration) : Worker :=
  match record with
  | none => w
  | some i =>
    match i.desired with
    | none => w
    | some _ => { w with markers := w.markers.eraseId i.id }

/-- Begins a dispatch: reads the record and calls the handler, unless the dispatch is out of date.
A record that cannot be read counts as a failure. -/
def begin (w : Worker) (site : Site) (id : IntegrationId) (handler : Handler) : Worker × Site :=
  match site.store.fetch id with
  | (.error _, store) => (w.countFailure id).arm { site with store } id
  | (.ok record, store) =>
    match target? handler record with
    | none => (w.dropStale record, { site with store })
    | some (i, desired) =>
      let call : Call :=
        { integration := i
          revision := handler.select i
          clock := site.clock
          moment := site.moment }
      let (run, environment) := handler.call call site.environment
      ({ w with
          markers := (w.markers.eraseId id).insert { desired, id := i.id }
          attempt := some
            { id, finish := run.finish, serial := site.serials, due := site.moment + run.wait } },
        { site with store, environment, serials := site.serials + 1 })

/-- Writes what a handler reports into the record as it is now; tells whether the attempt failed.  A
record that is gone stays gone. -/
def apply (store : Store) (clock : Timestamp) (id : IntegrationId) (u : StatusUpdate) :
    Except ReconcileError Bool × Store :=
  match store.fetch id with
  | (.error e, store) => (.error (.store e), store)
  | (.ok none, store) => (.ok u.failed, store)
  | (.ok (some i), store) =>
    match i.applyUpdate u clock with
    | .error e => (.error (.record e), store)
    | .ok i =>
      match store.update i with
      | (.error e, store) => (.error (.store e), store)
      | (.ok (), store) => (.ok u.failed, store)

/-- Writes an error into the record as it is now, if it can be read and written. -/
def recordError (store : Store) (clock : Timestamp) (id : IntegrationId) (e : ReconcileError) :
    Store :=
  match store.fetch id with
  | (.ok (some i), store) => (store.update (i.recordFailure ("Error: " ++ e.message) clock)).2
  | (_, store) => store

/-- Whether an attempt failed, or what went wrong. -/
def verdict (store : Store) (clock : Timestamp) (id : IntegrationId) :
    Outcome → Except ReconcileError Bool × Store
  | .report u => apply store clock id u
  | .nothing => (.ok false, store)
  | .failed e => (.error e, store)
  | .crashed => (.ok false, store)

/-- Takes over how a call ended, and sets the timer for the follow-up check. -/
def conclude (w : Worker) (site : Site) (id : IntegrationId) (outcome : Outcome) : Worker × Site :=
  match verdict site.store site.clock id outcome with
  | (.ok false, store) =>
    { w with failures := w.failures.erase id }.arm { site with store } id
  | (.ok true, store) => (w.countFailure id).arm { site with store } id
  | (.error e, store) =>
    (w.countFailure id).arm { site with store := recordError store site.clock id e } id

/-- Ends the call under way.  A handler that breaks down takes the worker with it. -/
def finish (w : Worker) (site : Site) (a : Attempt) : Worker × Site :=
  let (outcome, environment) := a.finish site.environment
  let w := { w with attempt := none }
  let site := { site with environment }
  if outcome = .crashed then (w.halt, site) else w.conclude site a.id outcome

/-- Answers a question with the markers held. -/
def answer (w : Worker) (question : Nat) : Worker :=
  { w with answers := w.answers ++ [(question, w.markers.listing)] }

/-- Carries out a command; a dispatch as far as the beginning of its call. -/
def handle (w : Worker) (site : Site) : Command → Worker × Site
  | .check id trigger => w.handleCheck site id trigger
  | .dispatch id handler => w.begin site id handler
  | .listMarkers question => (w.answer question, site)

/-- A timer fires: its follow-up check is queued. -/
def fire (w : Worker) (t : Timer) : Worker :=
  { w with timers := w.timers.filter (·.serial ≠ t.serial) }.enqueue (.check t.id .followUp)

end Worker

end Convergence
