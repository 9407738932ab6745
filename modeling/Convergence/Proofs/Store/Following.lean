import Mathlib.Data.Finset.Erase
import Mathlib.Data.Finset.Dedup
import Mathlib.Data.Finset.Insert
import Convergence.Proofs.Store.Delivery
/-!
# Following a store by its announcements

Somebody who knows the ids of a store can follow it by the messages that it sends (`follow`): a
write that goes through announces itself, and the announcement tells what became of the ids
(`Write.bus_run`, `Write.ids_run`).

A subscription is `Served` while the bus sends to it.  As long as nothing is dropped, whatever is
sent to it is kept until it is received.
-/

namespace Convergence

/-! ## What a store announces -/

namespace Store

variable {s s' : Store}

/-- What is sent when a record was changed. -/
def announcement (action : ChangeAction) (id : IntegrationId) : Message :=
  ⟨ChangeEvent.topic, (ChangeEvent.about action .integration id).encode⟩

lemma bus_announce (h : s.announces = true) (action : ChangeAction) (id : IntegrationId) :
    (s.announce action id).bus = s.bus.act (.broadcast (announcement action id)) := by
  rw [announce, if_pos h]
  rfl

lemma announces_fetch (s : Store) (id : IntegrationId) :
    (s.fetch id).2.announces = s.announces := by
  rcases s.enter_cases .fetch with ⟨n, -, h⟩ | ⟨-, h⟩ <;> simp [fetch, h, failNext]

lemma announces_fetchAll (s : Store) : s.fetchAll.2.announces = s.announces := by
  rcases s.enter_cases .fetchAll with ⟨n, -, h⟩ | ⟨-, h⟩ <;> simp [fetchAll, h, failNext]

/-- The ids of the records. -/
def ids (s : Store) : Finset IntegrationId := s.records.keys.toFinset

lemma mem_ids {id : IntegrationId} : id ∈ s.ids ↔ (s.record? id).isSome = true := by
  simp [ids, Dict.keys, record?, Dict.find?]

lemma ids_congr (h : s'.records = s.records) : s'.ids = s.ids := by rw [ids, ids, h]

lemma ids_insert {id : IntegrationId} {i : Integration}
    (h : s'.records = s.records.insert id i) : s'.ids = insert id s.ids := by
  ext other
  rw [Finset.mem_insert, mem_ids, mem_ids, record?, record?, h, Dict.find?_insert]
  split
  · next heq => simp [heq]
  · next hne => simp [hne]

lemma ids_erase {id : IntegrationId} (h : s'.records = s.records.erase id) :
    s'.ids = s.ids.erase id := by
  ext other
  rw [Finset.mem_erase, mem_ids, mem_ids, record?, record?, h]
  by_cases heq : other = id
  · simp [heq]
  · rw [Dict.find?_erase_of_ne _ heq]
    simp [heq]

end Store

/-- The ids of a store after a message, for somebody who knew them before. -/
def Message.follow (ids : Finset IntegrationId) (m : Message) : Finset IntegrationId :=
  if m.topic = ChangeEvent.topic then
    match ChangeEvent.decode m.data with
    | .ok e =>
      match e.integrationId?, e.action with
      | some id, .created => insert id ids
      | some id, .deleted => ids.erase id
      | _, _ => ids
    | .error _ => ids
  else ids

lemma Message.follow_announcement (ids : Finset IntegrationId) (action : ChangeAction)
    (id : IntegrationId) : follow ids (Store.announcement action id) =
      match action with
      | .created => insert id ids
      | .updated => ids
      | .deleted => ids.erase id := by
  rw [follow, Store.announcement, if_pos rfl, ChangeEvent.decode_encode]
  simp only [ChangeEvent.integrationId?_about]
  cases action <;> rfl

namespace Write

/-- What a write does to its record. -/
def action : Write → ChangeAction
  | .create _ => .created
  | .update _ => .updated
  | .delete _ => .deleted

/-- A write fails and changes nothing, or it goes through and announces what became of the ids. -/
lemma run_done (wr : Write) (s : Store) :
    ((wr.run s).1 = false ∧ (wr.run s).2.records = s.records ∧ (wr.run s).2.bus = s.bus ∧
        (wr.run s).2.announces = s.announces) ∨
      ∃ records, wr.run s = (true, ({ s with records } : Store).announce wr.action wr.id) ∧
        ({ s with records } : Store).ids
          = Message.follow s.ids (Store.announcement wr.action wr.id) := by
  simp only [Message.follow_announcement]
  cases wr with
  | create i =>
    rcases s.enter_cases .create with ⟨n, -, h⟩ | ⟨-, h⟩
    · left
      simp [run, Store.create, h, Store.failNext, Except.isOk, Except.toBool]
    · by_cases hthere : s.records.contains i.id = true
      · left
        simp [run, Store.create, h, hthere, Except.isOk, Except.toBool]
      · right
        refine ⟨s.records.insert i.id i, ?_, Store.ids_insert rfl⟩
        simp [run, Store.create, h, hthere, Except.isOk, Except.toBool, action, id]
  | update i =>
    rcases s.enter_cases .update with ⟨n, -, h⟩ | ⟨-, h⟩
    · left
      simp [run, Store.update, h, Store.failNext, Except.isOk, Except.toBool]
    · by_cases hthere : s.records.contains i.id = true
      · right
        refine ⟨s.records.insert i.id i, ?_, ?_⟩
        · simp [run, Store.update, h, hthere, Except.isOk, Except.toBool, action, id]
        · rw [Store.ids_insert rfl]
          exact Finset.insert_eq_of_mem (Store.mem_ids.2 hthere)
      · left
        simp [run, Store.update, h, hthere, Except.isOk, Except.toBool]
  | delete id =>
    rcases s.enter_cases .delete with ⟨n, -, h⟩ | ⟨-, h⟩
    · left
      simp [run, Store.delete, h, Store.failNext, Except.toOption]
    · by_cases hthere : s.records.contains id = true
      · right
        refine ⟨s.records.erase id, ?_, Store.ids_erase rfl⟩
        simp [run, Store.delete, h, hthere, Except.toOption, action, Write.id]
      · left
        simp [run, Store.delete, h, hthere, Except.toOption]

/-- A write that fails publishes nothing and changes no record. -/
lemma run_of_failed {wr : Write} {s : Store} (h : (wr.run s).1 = false) :
    (wr.run s).2.records = s.records ∧ (wr.run s).2.bus = s.bus := by
  rcases wr.run_done s with ⟨-, hrecords, hbus, -⟩ | ⟨records, hrun, -⟩
  · exact ⟨hrecords, hbus⟩
  · simp [hrun] at h

lemma announces_run (wr : Write) (s : Store) : (wr.run s).2.announces = s.announces := by
  rcases wr.run_done s with ⟨-, -, -, h⟩ | ⟨records, hrun, -⟩
  · exact h
  · rw [hrun, Store.announce]
    split <;> rfl

/-- A write is announced if it goes through, and only then. -/
lemma bus_run (wr : Write) {s : Store} (h : s.announces = true) :
    (wr.run s).2.bus =
      if (wr.run s).1 then s.bus.act (.broadcast (Store.announcement wr.action wr.id))
      else s.bus := by
  rcases wr.run_done s with ⟨hfailed, -, hbus, -⟩ | ⟨records, hrun, -⟩
  · rw [hfailed, hbus]
    rfl
  · rw [hrun]
    exact Store.bus_announce (s := { s with records }) h wr.action wr.id

/-- The announcement tells what became of the ids. -/
lemma ids_run (wr : Write) (s : Store) :
    (wr.run s).2.ids =
      if (wr.run s).1 then Message.follow s.ids (Store.announcement wr.action wr.id)
      else s.ids := by
  rcases wr.run_done s with ⟨hfailed, hrecords, -⟩ | ⟨records, hrun, hids⟩
  · rw [hfailed, Store.ids_congr hrecords]
    rfl
  · rw [hrun, if_pos rfl, ← hids]
    exact Store.ids_congr (Store.records_announce _ _ _)

end Write

/-! ## Subscriptions that are served -/

namespace Bus

variable {b : Bus} {s : Subscription} {name : String} {kept : List Message}

/-- The bus sends to a subscription, and keeps these messages for it. -/
def Served (b : Bus) (s : Subscription) (name : String) (kept : List Message) : Prop :=
  ∃ c, b.channels[s]? = some c ∧ c.name = name ∧ c.isLive = true ∧ c.pending = kept

/-- Nothing was dropped since the subscriber was last told so. -/
def KeepsUp (b : Bus) (s : Subscription) : Prop := ∀ c ∈ b.channels[s]?, c.overtaken = false

/-- The act neither ends the subscription nor takes its messages. -/
def Act.Spares (name : String) (s : Subscription) (a : Act) : Prop :=
  a.ends name = false ∧ a ≠ .recv s ∧ a ≠ .leave s

namespace Served

/-- A new subscription is served, and nothing is kept for it yet. -/
lemma subscribe (b : Bus) (name : String) :
    (b.subscribe name).2.Served b.channels.length name [] :=
  ⟨{ name := name }, by simp [Bus.subscribe], rfl, rfl, rfl⟩

/-- What is sent is kept, if the subscriber keeps up. -/
lemma act (h : b.Served s name kept) {a : Act} (ha : a.Spares name s)
    (hup : (b.act a).KeepsUp s) : (b.act a).Served s name (kept ++ a.message?.toList) := by
  obtain ⟨c, hc, hname, hlive, hpending⟩ := h
  obtain ⟨hends, hrecv, hleave⟩ := ha
  have hnext : (b.act a).channels[s]? = some (c.act b.capacity s a) := by
    simp [channels_act, hc]
  have hup : (c.act b.capacity s a).overtaken = false := hup _ hnext
  refine ⟨_, hnext, ?_⟩
  cases a with
  | subscribe name' | unsubscribe name' =>
    have hkeeps : release name' c = c := by
      rw [release, if_neg]
      rw [hname]
      simpa [Act.ends, eq_comm] using hends
    rw [Channel.act, hkeeps]
    exact ⟨hname, hlive, by simp [hpending, Act.message?]⟩
  | broadcast m =>
    rw [Channel.act, if_pos hlive] at hup ⊢
    refine ⟨by simpa using hname, by simpa [Channel.isLive] using hlive, ?_⟩
    rw [Channel.deliver] at hup ⊢
    split at hup
    · cases hup
    · next hroom =>
      rw [if_neg hroom, ← hpending]
      rfl
  | recv s' =>
    have hne : s' ≠ s := fun hs => hrecv (by rw [hs])
    simp [Channel.act, hne, hname, hlive, hpending, Act.message?]
  | leave s' =>
    have hne : s' ≠ s := fun hs => hleave (by rw [hs])
    simp [Channel.act, hne, hname, hlive, hpending, Act.message?]

/-- The first message kept is received. -/
lemma recv (h : b.Served s name kept) :
    (b.recv s).1 = kept.head?.elim .empty .message ∧ (b.recv s).2.Served s name kept.tail := by
  obtain ⟨c, hc, hname, hlive, rfl⟩ := h
  have hreg : c.registered = true := (Bool.and_eq_true_iff.1 hlive).1
  simp only [Bus.recv, channel?, hc]
  constructor
  · rw [Channel.recv_eq]
    cases c.pending with
    | nil => simp [hreg]
    | cons m rest => rfl
  · refine ⟨c.recv.2, by simp [modify, hc], ?_⟩
    rw [Channel.recv_eq]
    exact ⟨hname, hlive, rfl⟩

end Served

end Bus

end Convergence
