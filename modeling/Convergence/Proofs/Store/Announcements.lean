import Convergence.Proofs.Record.Codec
import Convergence.Proofs.Store.Calls
import Convergence.Reconcile.Controller
/-!
# Announcements

The store announces a change of a record by a message, and a listener finds the record named in it
(`changed?_about`), because an event is read back from its text (`decode_encode`).

Each subscription has messages kept for it.  `Store.Tells` says that one of them names a record.
The store comes to tell of a record only when it is written (`tells_update`).
-/

namespace Convergence

/-! ## Events and their texts -/

namespace ChangeEvent

lemma holds_node (f : Format) (e : ChangeEvent) : Node.Holds (ofNode? f) e.node e := by
  have hnode : e.node = Node.record [("event", some e.action.node),
      ("kind", e.kindName.map .str), ("id", e.id.map .str)] := by
    simp [node, Node.record]
  rw [hnode]
  refine Node.holds_record ?_ ?_
  · rw [ofNode?, Node.fields?_bind _ (by decide),
      Fields.required_bind _ e.action.holds_node, Fields.optional_bind _ holds_str,
      Fields.optional_bind _ holds_str]
    all_goals rfl
  · simp [(ChangeAction.holds_node _).plain, (holds_str _).plain]

/-- An event is read back from its text. -/
theorem decode_encode (e : ChangeEvent) : decode e.encode = .ok e := by
  rw [decode, encode, (e.holds_node .json).read?_compact]

/-- An event about an integration names it. -/
lemma integrationId?_about (action : ChangeAction) (id : IntegrationId) :
    (about action .integration id).integrationId? = some id := by
  have hkind : (about action .integration id).kind? = some .integration := by
    cases action <;> rfl
  rw [integrationId?, if_pos hkind]
  rfl

end ChangeEvent

/-- A listener finds in an announcement the integration that it is about. -/
theorem Controller.changed?_about (action : ChangeAction) (id : IntegrationId) :
    changed? ⟨ChangeEvent.topic, (ChangeEvent.about action .integration id).encode⟩ = some id := by
  rw [changed?, if_pos rfl, ChangeEvent.decode_encode]
  exact ChangeEvent.integrationId?_about action id

/-! ## Messages kept on the bus -/

namespace Channel

/-- Receiving takes messages away, and what is received was kept. -/
lemma mem_of_recv {c c' : Channel} {r : Reading} (h : c.recv = (r, c')) :
    (∀ m ∈ c'.pending, m ∈ c.pending) ∧ ∀ m, r = .message m → m ∈ c.pending := by
  have hpoll : ∀ {c c' : Channel} {r : Reading}, c.poll = (r, c') →
      (∀ m ∈ c'.pending, m ∈ c.pending) ∧ ∀ m, r = .message m → m ∈ c.pending := by
    intro c c' r h
    rw [poll] at h
    split at h
    · cases h
      exact ⟨fun _ hm => hm, fun _ hr => by cases hr⟩
    · split at h
      · next m rest hrest =>
        cases h
        simp only [hrest]
        exact ⟨fun _ => List.mem_cons_of_mem m, fun _ hr => by cases hr; simp⟩
      · cases h
        refine ⟨fun _ hm => hm, fun m hr => ?_⟩
        split at hr <;> cases hr
  rw [recv] at h
  split at h
  · next c₁ hfirst =>
    obtain ⟨hkept, -⟩ := hpoll hfirst
    obtain ⟨hkept', hread⟩ := hpoll h
    exact ⟨fun m hm => hkept m (hkept' m hm), fun m hr => hkept m (hread m hr)⟩
  · next r' _ => exact hpoll h

lemma mem_deliver {capacity : Nat} {m m' : Message} {c : Channel}
    (h : m' ∈ (c.deliver capacity m).pending) : m' ∈ c.pending ∨ m' = m := by
  rw [deliver] at h
  have hkept : m' ∈ c.pending ++ [m] := by
    split at h
    · exact List.mem_of_mem_drop h
    · exact h
  simpa using hkept

@[simp] lemma pending_release (name : String) (c : Channel) :
    (Bus.release name c).pending = c.pending := by
  rw [Bus.release]
  split <;> rfl

end Channel

namespace Bus

variable {b : Bus} {s : Subscription} {m : Message}

/-- The messages kept for a subscription. -/
def kept (b : Bus) (s : Subscription) : List Message := (b.channel? s).elim [] (·.pending)

lemma mem_kept : m ∈ b.kept s ↔ ∃ c, b.channels[s]? = some c ∧ m ∈ c.pending := by
  rw [kept, channel?]
  cases b.channels[s]? <;> simp

/-- Nothing is kept for a subscription that is not there yet. -/
lemma kept_length (b : Bus) : b.kept b.channels.length = [] := by simp [kept, channel?]

lemma kept_unsubscribe (b : Bus) (name : String) (s : Subscription) :
    (b.unsubscribe name).2.kept s = b.kept s := by
  simp only [kept, channel?, unsubscribe, List.getElem?_map]
  cases b.channels[s]? <;> simp

/-- Nothing is kept for a new subscription, and as before for the others. -/
lemma kept_subscribe (b : Bus) (name : String) (s : Subscription) :
    (b.subscribe name).2.kept s = b.kept s := by
  rw [← kept_unsubscribe b name s]
  simp only [kept, channel?, subscribe, unsubscribe, List.getElem?_append, List.length_map]
  split
  · rfl
  · next h =>
    have hnone : (b.channels.map (release name))[s]? = none := by simpa using h
    rw [hnone]
    cases s - b.channels.length <;> simp

lemma mem_kept_modify {f : Channel → Channel} {s' : Subscription}
    (hf : ∀ c m, b.channels[s]? = some c → m ∈ (f c).pending → m ∈ c.pending)
    (h : m ∈ (b.modify s f).kept s') : m ∈ b.kept s' := by
  obtain ⟨c', hc', hm⟩ := mem_kept.1 h
  simp only [modify, List.getElem?_modify, Option.map_eq_map, Option.map_eq_some_iff] at hc'
  obtain ⟨c, hc, rfl⟩ := hc'
  refine mem_kept.2 ⟨c, hc, ?_⟩
  split at hm
  · next hs => exact hf c m (hs ▸ hc) hm
  · exact hm

lemma mem_kept_leave {s' : Subscription} (h : m ∈ (b.leave s).kept s') : m ∈ b.kept s' :=
  mem_kept_modify (fun _ _ _ hm => by simp at hm) h

/-- Receiving takes messages away, and what is received was kept. -/
lemma mem_kept_of_recv {b' : Bus} {r : Reading} (h : b.recv s = (r, b')) :
    (∀ s' m, m ∈ b'.kept s' → m ∈ b.kept s') ∧ ∀ m, r = .message m → m ∈ b.kept s := by
  rw [recv] at h
  split at h
  · next c hc =>
    cases h
    obtain ⟨hkept, hread⟩ := Channel.mem_of_recv (c := c) rfl
    refine ⟨fun s' m hm => mem_kept_modify (fun c' m' hc' hm' => ?_) hm,
      fun m hr => mem_kept.2 ⟨c, hc, hread m hr⟩⟩
    obtain rfl : c = c' := by simpa [channel?, hc'] using hc.symm
    exact hkept m' hm'
  · cases h
    exact ⟨fun _ _ hm => hm, fun _ hr => by cases hr⟩

lemma mem_kept_broadcast {m' : Message} (h : m ∈ (b.broadcast m').2.kept s) :
    m ∈ b.kept s ∨ m = m' := by
  obtain ⟨c', hc', hm⟩ := mem_kept.1 h
  simp only [broadcast, List.getElem?_map, Option.map_eq_some_iff] at hc'
  obtain ⟨c, hc, rfl⟩ := hc'
  split at hm
  · exact (Channel.mem_deliver hm).imp_left fun hm => mem_kept.2 ⟨c, hc, hm⟩
  · exact Or.inl (mem_kept.2 ⟨c, hc, hm⟩)

end Bus

/-! ## What a store tells its subscribers -/

namespace Store

variable {s s' : Store} {sub : Subscription} {id other : IntegrationId}

/-- A message kept for the subscription says that the record was changed. -/
def Tells (s : Store) (sub : Subscription) (id : IntegrationId) : Prop :=
  ∃ m ∈ s.bus.kept sub, Controller.changed? m = some id

lemma tells_congr (h : s'.bus = s.bus) : s'.Tells sub id ↔ s.Tells sub id := by
  rw [Tells, Tells, h]

lemma bus_enter (s : Store) (call : StoreCall) : (s.enter call).2.bus = s.bus := by
  rcases s.enter_cases call with ⟨n, _, h⟩ | ⟨_, h⟩
  · rw [h]
    rfl
  · rw [h]

lemma bus_fetch (s : Store) (id : IntegrationId) : (s.fetch id).2.bus = s.bus := by
  have hbus := s.bus_enter .fetch
  rw [fetch]
  split <;> next h => simpa [h] using hbus

lemma bus_fetchAll (s : Store) : s.fetchAll.2.bus = s.bus := by
  have hbus := s.bus_enter .fetchAll
  rw [fetchAll]
  split <;> next h => simpa [h] using hbus

lemma tells_announce {action : ChangeAction} (h : (s.announce action id).Tells sub other) :
    s.Tells sub other ∨ other = id := by
  obtain ⟨m, hm, hchanged⟩ := h
  rw [announce] at hm
  split at hm
  · rcases Bus.mem_kept_broadcast hm with hm | rfl
    · exact Or.inl ⟨m, hm, hchanged⟩
    · rw [Controller.changed?_about] at hchanged
      exact Or.inr (Option.some.inj hchanged).symm
  · exact Or.inl ⟨m, hm, hchanged⟩

lemma tells_update {i : Integration} (h : (s.update i).2.Tells sub other) :
    s.Tells sub other ∨ other = i.id := by
  have hbus := s.bus_enter .update
  rw [update] at h
  split at h
  · next e s₁ henter =>
    rw [henter] at hbus
    exact Or.inl ((tells_congr hbus).1 h)
  · next s₁ henter =>
    rw [henter] at hbus
    split at h
    · exact (tells_announce h).imp_left (tells_congr hbus).1
    · exact Or.inl ((tells_congr hbus).1 h)

end Store

end Convergence
