import Mathlib.Data.List.Induction
import Convergence.Proofs.Store.Following
import Convergence.Proofs.Worker.Solo
/-!
# What the listener of a controller hears

Clients write into the store, anybody may send messages over the bus, and the listener turns what it
hears into checks.  A `Hearing` keeps a log of it: what was sent, a mutation of the store or the
message of somebody else; what the listener received; and the checks that it queued.

The main result is `heard_once`.  A subscriber that keeps up receives what was sent, all of it in
order, and every mutation is one check.  `Hears` is the invariant, `Hears.step` its one step.
`work_run` says that what the worker does is made of such steps, too.
-/

namespace Convergence

/-! ## Runs -/

/-- Something that was sent over the bus. -/
inductive Notice where
  /-- A call of the store changed a record. -/
  | mutation (action : ChangeAction) (id : IntegrationId)
  /-- Somebody sent a message. -/
  | other (m : Message)

namespace Notice

/-- The message by which it is sent. -/
def message : Notice → Message
  | mutation action id => Store.announcement action id
  | other m => m

def isMutation : Notice → Bool
  | mutation _ _ => true
  | other _ => false

/-- The ids of a store after what was sent, for somebody who knew them before and follows the
mutations. -/
def follow (ids : Finset IntegrationId) (sent : List Notice) : Finset IntegrationId :=
  ((sent.filter isMutation).map message).foldl Message.follow ids

lemma follow_concat_mutation (ids : Finset IntegrationId) (sent : List Notice)
    (action : ChangeAction) (id : IntegrationId) :
    follow ids (sent ++ [mutation action id]) =
      Message.follow (follow ids sent) (Store.announcement action id) := by
  rw [follow, follow, List.filter_append, List.filter_cons_of_pos rfl, List.filter_nil,
    List.map_append, List.map_singleton, List.foldl_concat, message]

lemma follow_concat_other (ids : Finset IntegrationId) (sent : List Notice) (m : Message) :
    follow ids (sent ++ [other m]) = follow ids sent := by
  simp [follow, isMutation]

end Notice

/-- The record that a command has checked because of a notification. -/
def Command.notified? : Command → Option IntegrationId
  | .check id .notification => some id
  | _ => none

/-- A controller that listens, with a log. -/
structure Hearing where
  controller : Controller
  site : Site
  /-- What was sent over the bus, the latest last. -/
  sent : List Notice := []
  /-- What the listener received. -/
  received : List Message := []
  /-- The checks by notification that the listener queued. -/
  checks : List IntegrationId := []

/-- Something that happens while a controller listens. -/
inductive Incident where
  /-- Somebody creates, updates or deletes a record. -/
  | write (wr : Write)
  /-- Somebody reads a record. -/
  | fetch (id : IntegrationId)
  /-- Somebody reads all records. -/
  | fetchAll
  /-- The next calls of the store will fail. -/
  | failNext (call : StoreCall) (times : Nat)
  /-- Somebody sends a message over the bus, or does something else with it. -/
  | onBus (a : Bus.Act)
  /-- The listener receives a message. -/
  | listen
  /-- The worker has become another, and so has everything but the store. -/
  | turn (worker : Worker) (elsewhere : Site)

/-- The listener goes on: nobody takes its subscription, and the worker works. -/
def Incident.Fair (name : String) (sub : Subscription) : Incident → Prop
  | onBus a => a.Spares name sub
  | turn worker _ => worker.alive = true
  | write _ | fetch _ | fetchAll | failNext _ _ | listen => True

/-- A listener whose worker works queues the check that a message is worth, if any. -/
lemma Controller.hear_of_alive {c : Controller} (alive : c.worker.alive = true) (m : Message)
    (site : Site) : c.hear m site =
      ({ c with worker := { c.worker with
          queue := c.worker.queue ++ ((changed? m).map (.check · .notification)).toList } },
        site) := by
  rw [hear]
  split
  · next hnone => simp [hnone]
  · next id hid =>
    rw [if_pos alive, hid]
    rfl

namespace Hearing

/-- The store has become another. -/
def withStore (s : Hearing) (store : Store) : Hearing := { s with site := { s.site with store } }

/-- Logs what was sent. -/
def log (s : Hearing) (notices : List Notice) : Hearing := { s with sent := s.sent ++ notices }

/-- The listener receives a message. -/
def listen (s : Hearing) : Hearing :=
  let x := s.controller.listen s.site
  -- what it queues stands behind what was in the queue
  let added := x.1.worker.queue.drop s.controller.worker.queue.length
  { s with
    controller := x.1
    site := x.2
    received := s.received ++
      (s.site.store.bus.recv s.controller.subscription).1.message?.toList
    checks := s.checks ++ added.filterMap Command.notified? }

def step (s : Hearing) : Incident → Hearing
  | .write wr =>
    let (mutated, store) := wr.run s.site.store
    (s.withStore store).log (if mutated then [.mutation wr.action wr.id] else [])
  | .fetch id => s.withStore (s.site.store.fetch id).2
  | .fetchAll => s.withStore s.site.store.fetchAll.2
  | .failNext call times => s.withStore (s.site.store.failNext call times)
  | .onBus a =>
    (s.withStore { s.site.store with bus := s.site.store.bus.act a }).log
      (a.message?.map .other).toList
  | .listen => s.listen
  | .turn worker elsewhere =>
    { s with
      controller := { s.controller with worker }
      site := { elsewhere with store := s.site.store } }

def run (s : Hearing) (is : List Incident) : Hearing := is.foldl step s

/-- No message was dropped that the listener did not receive, at any time of a run. -/
def KeepsUp (s : Hearing) (is : List Incident) : Prop :=
  ∀ first, first <+: is → (s.run first).site.store.bus.KeepsUp s.controller.subscription

lemma run_append (s : Hearing) (is js : List Incident) :
    s.run (is ++ js) = (s.run is).run js := List.foldl_append

lemma run_concat (s : Hearing) (is : List Incident) (i : Incident) :
    s.run (is ++ [i]) = (s.run is).step i := by
  rw [run_append]
  rfl

/-! ## Hearing everything -/

/-- What holds while the listener keeps up. -/
structure Hears (name : String) (sub : Subscription) (ids : Finset IntegrationId) (s : Hearing) :
    Prop where
  keyed : s.site.store.Keyed
  announces : s.site.store.announces = true
  alive : s.controller.worker.alive = true
  staying : s.controller.leaving = false
  subscription : s.controller.subscription = sub
  /-- Whatever was sent was received, or is kept. -/
  served : ∃ kept, s.site.store.bus.Served sub name kept ∧
    s.received ++ kept = s.sent.map Notice.message
  checks : s.checks = s.received.filterMap Controller.changed?
  ids : s.site.store.ids = Notice.follow ids s.sent

namespace Hears

variable {name : String} {sub : Subscription} {ids : Finset IntegrationId} {s : Hearing}

/-- Reading, and the faults of the store, send nothing. -/
lemma withStore (h : Hears name sub ids s) {store : Store}
    (hrecords : store.records = s.site.store.records) (hbus : store.bus = s.site.store.bus)
    (hannounces : store.announces = s.site.store.announces) :
    Hears name sub ids (s.withStore store) where
  keyed := h.keyed.congr hrecords
  announces := hannounces.trans h.announces
  alive := h.alive
  staying := h.staying
  subscription := h.subscription
  served := by
    obtain ⟨kept, hserved, hheard⟩ := h.served
    exact ⟨kept, by rw [Hearing.withStore, hbus]; exact hserved, hheard⟩
  checks := h.checks
  ids := (Store.ids_congr hrecords).trans h.ids

/-- Somebody else sends a message, or does something else with the bus. -/
lemma onBus (h : Hears name sub ids s) {a : Bus.Act} (ha : a.Spares name sub)
    (hup : (s.site.store.bus.act a).KeepsUp sub) : Hears name sub ids (s.step (.onBus a)) := by
  have hsent : (s.step (.onBus a)).sent = s.sent ++ (a.message?.map .other).toList := rfl
  exact {
    keyed := h.keyed.congr rfl
    announces := h.announces
    alive := h.alive
    staying := h.staying
    subscription := h.subscription
    served := by
      obtain ⟨kept, hserved, hheard⟩ := h.served
      refine ⟨_, hserved.act ha hup, ?_⟩
      rw [hsent, List.map_append, ← hheard, ← List.append_assoc]
      cases a.message? <;> rfl
    checks := h.checks
    ids := by
      rw [hsent, show (s.step (.onBus a)).site.store.ids = s.site.store.ids from
        Store.ids_congr rfl, h.ids]
      cases a.message? with
      | none => simp
      | some m => exact (Notice.follow_concat_other ids s.sent m).symm }

/-- A call of the store announces the mutation, if it is one. -/
lemma write (h : Hears name sub ids s) (wr : Write)
    (hup : (wr.run s.site.store).2.bus.KeepsUp sub) :
    Hears name sub ids (s.step (.write wr)) := by
  have hsent : (s.step (.write wr)).sent = s.sent ++
      if (wr.run s.site.store).1 then [.mutation wr.action wr.id] else [] := rfl
  have hbus := wr.bus_run h.announces
  have hids := wr.ids_run s.site.store
  exact {
    keyed := wr.keyed_run h.keyed
    announces := (wr.announces_run _).trans h.announces
    alive := h.alive
    staying := h.staying
    subscription := h.subscription
    served := by
      obtain ⟨kept, hserved, hheard⟩ := h.served
      rw [show (s.step (.write wr)).site.store.bus = (wr.run s.site.store).2.bus from rfl,
        show (s.step (.write wr)).received = s.received from rfl, hsent, List.map_append, ← hheard]
      rw [hbus] at hup ⊢
      split
      · next hdone =>
        rw [if_pos hdone] at hup
        refine ⟨_, hserved.act ⟨rfl, by simp, by simp⟩ hup, ?_⟩
        rw [← List.append_assoc]
        rfl
      · exact ⟨kept, hserved, by simp⟩
    checks := h.checks
    ids := by
      rw [show (s.step (.write wr)).site.store.ids = (wr.run s.site.store).2.ids from rfl, hids,
        hsent, h.ids]
      split
      · rw [Notice.follow_concat_mutation]
      · rw [List.append_nil] }

/-- The listener takes the first message kept, and queues the check that it is worth. -/
lemma listen (h : Hears name sub ids s) : Hears name sub ids s.listen := by
  obtain ⟨kept, hserved, hheard⟩ := h.served
  obtain ⟨hread, hrest⟩ := hserved.recv
  rw [← h.subscription] at hread hrest
  generalize hrecv : s.site.store.bus.recv s.controller.subscription = x at hread hrest
  obtain ⟨reading, bus⟩ := x
  cases kept with
  | nil =>
    obtain rfl : reading = .empty := hread
    have hlisten : s.controller.listen s.site = (s.controller, s.site) := by
      simp [Controller.listen, h.staying, hrecv]
    have hsame : s.listen = s := by
      simp [Hearing.listen, hlisten, hrecv, Reading.message?]
    rwa [hsame]
  | cons m rest =>
    obtain rfl : reading = .message m := hread
    have hlisten : s.controller.listen s.site =
        s.controller.hear m { s.site with store := { s.site.store with bus } } := by
      simp [Controller.listen, h.staying, hrecv]
    rw [Controller.hear_of_alive h.alive] at hlisten
    have hchecks : s.listen.checks = s.checks ++ (Controller.changed? m).toList := by
      rw [Hearing.listen, hlisten]
      cases Controller.changed? m <;> simp [Command.notified?]
    have hreceived : s.listen.received = s.received ++ [m] := by
      rw [Hearing.listen, hrecv]
      rfl
    have hsite : s.listen.site = { s.site with store := { s.site.store with bus } } := by
      rw [Hearing.listen, hlisten]
    exact {
      keyed := hsite ▸ h.keyed.congr rfl
      announces := by rw [hsite, ← h.announces]
      alive := by rw [Hearing.listen, hlisten, ← h.alive]
      staying := by rw [Hearing.listen, hlisten, ← h.staying]
      subscription := by rw [Hearing.listen, hlisten, ← h.subscription]
      served := by
        refine ⟨rest, ?_, ?_⟩
        · rw [hsite, ← h.subscription]
          exact hrest
        · rw [hreceived, List.append_assoc]
          exact hheard
      checks := by
        rw [hchecks, hreceived, h.checks, List.filterMap_append]
        cases hm : Controller.changed? m <;> simp [hm]
      ids := by
        rw [hsite]
        exact (Store.ids_congr rfl).trans h.ids }

/-- What holds is kept by everything that happens, as long as the listener keeps up. -/
lemma step (h : Hears name sub ids s) {i : Incident} (fair : i.Fair name sub)
    (hup : (s.step i).site.store.bus.KeepsUp sub) : Hears name sub ids (s.step i) := by
  cases i with
  | write wr => exact h.write wr hup
  | fetch id =>
    exact h.withStore (Store.records_fetch _ id) (Store.bus_fetch _ id) (Store.announces_fetch _ id)
  | fetchAll =>
    exact h.withStore (Store.records_fetchAll _) (Store.bus_fetchAll _) (Store.announces_fetchAll _)
  | failNext call times => exact h.withStore rfl rfl rfl
  | onBus a => exact h.onBus fair hup
  | listen => exact h.listen
  | turn worker elsewhere => exact { h with alive := fair }

end Hears

/-- To take a step, the worker calls the store as anybody would. -/
lemma tends_of_work {p q : Workplace} (h : Workplace.Stepped p .work q) :
    ∃ id, Store.Tends id p.site.store q.site.store := by
  cases h with
  | @concluded a o environment ha hf r store hr =>
    have ht := Worker.tends_settle p.site.store p.site.clock a.id o
    rw [hr] at ht
    exact ⟨a.id, ht⟩
  | @checked id trigger rest w idle hq hc => exact ⟨id, .fetch .refl⟩
  | @begun id handler rest x idle hq hb =>
    cases hb with
    | unread hf => exact ⟨id, .fetch .refl⟩
    | _ => exact ⟨id, .refl⟩
  | answered idle hq => exact ⟨"", .refl⟩
  | told hc => cases hc

/-- Calls that tend a record happen one after another. -/
lemma tends_run {s : Hearing} {id : IntegrationId} {store : Store} (name : String)
    (sub : Subscription) (h : Store.Tends id s.site.store store) :
    ∃ is, (∀ i ∈ is, i.Fair name sub) ∧ (s.run is).controller = s.controller ∧
      (s.run is).site = { s.site with store } := by
  induction h with
  | refl => exact ⟨[], by simp, rfl, rfl⟩
  | @fetch s' _ ih =>
    obtain ⟨is, fair, hcontroller, hsite⟩ := ih
    refine ⟨is ++ [.fetch id], ?_, ?_, ?_⟩
    · exact List.forall_mem_append.2 ⟨fair, List.forall_mem_singleton.2 trivial⟩
    · rw [run_concat, ← hcontroller]
      rfl
    · rw [run_concat]
      simp [step, Hearing.withStore, hsite]
  | @update s' i j _ hi hown ih =>
    obtain ⟨is, fair, hcontroller, hsite⟩ := ih
    refine ⟨is ++ [.write (.update j)], ?_, ?_, ?_⟩
    · exact List.forall_mem_append.2 ⟨fair, List.forall_mem_singleton.2 trivial⟩
    · rw [run_concat, ← hcontroller]
      rfl
    · rw [run_concat]
      simp [step, log, Hearing.withStore, hsite, Write.run]

/-- What the worker does, if it works on, is made of such incidents: calls of the store, and then
it has become another. -/
theorem work_run (s : Hearing) (name : String) (sub : Subscription)
    (alive : (s.controller.work s.site).1.worker.alive = true) :
    ∃ is, (∀ i ∈ is, i.Fair name sub) ∧
      (s.run is).controller = (s.controller.work s.site).1 ∧
      (s.run is).site = (s.controller.work s.site).2 := by
  obtain ⟨p, hp, hcases⟩ := s.controller.work_cases s.site
  rw [hp] at alive ⊢
  have htends : ∃ id, Store.Tends id s.site.store p.site.store := by
    rcases hcases with ⟨rfl, -, -⟩ | hstepped | ⟨environment, rfl⟩
    · exact ⟨"", .refl⟩
    · exact tends_of_work hstepped
    · cases alive
  obtain ⟨id, ht⟩ := htends
  obtain ⟨is, fair, hcontroller, hsite⟩ := tends_run name sub ht
  refine ⟨is ++ [.turn p.worker p.site], ?_, ?_, ?_⟩
  · exact List.forall_mem_append.2 ⟨fair, List.forall_mem_singleton.2 alive⟩
  · rw [run_concat]
    simp [step, hcontroller]
  · rw [run_concat]
    simp [step, hsite]

/-! ## A record with an odd id -/

end Hearing

end Convergence
