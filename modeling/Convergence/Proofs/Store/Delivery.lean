import Mathlib.Data.List.TakeWhile
import Mathlib.Data.List.Induction
import Mathlib.Order.Bounds.Defs
import Convergence.Proofs.Store.Announcements
/-!
# What a subscription yields

A history is a list of what was done with a bus.  The history alone says which messages were sent
to a subscription (`Tenure.sent`) and at which places among them stand those that it is to yield
(`reads`): each time it is asked, the oldest that it did not yield among the newest, as many as
the bus keeps.

The bus keeps to that account (`delivery`).  What it keeps for a subscription is the end of what
was sent, and what stands before that end was yielded or is too old.  `Books` is this invariant of
one subscription, `Books.act` says that every act keeps it.
-/

namespace Convergence

/-- The message that is read. -/
def Reading.message? : Reading → Option Message
  | message m => some m
  | overtaken | empty | closed => none

namespace Bus

/-! ## Histories -/

/-- What is done with a bus and its subscriptions. -/
inductive Act where
  | subscribe (name : String)
  | unsubscribe (name : String)
  | broadcast (m : Message)
  | recv (s : Subscription)
  | leave (s : Subscription)
deriving DecidableEq, Repr

namespace Act

/-- It takes the name away from the subscription that had it. -/
def ends (name : String) : Act → Bool
  | subscribe name' | unsubscribe name' => name' = name
  | broadcast _ | recv _ | leave _ => false

/-- It makes a subscription. -/
def subscribes : Act → Bool
  | subscribe _ => true
  | unsubscribe _ | broadcast _ | recv _ | leave _ => false

/-- The message that it sends. -/
def message? : Act → Option Message
  | broadcast m => some m
  | subscribe _ | unsubscribe _ | recv _ | leave _ => none

lemma message?_of_ends {a : Act} {name : String} (h : a.ends name) : a.message? = none := by
  cases a <;> simp_all [ends, message?]

end Act

/-- The bus after one act. -/
def act (b : Bus) : Act → Bus
  | .subscribe name => (b.subscribe name).2
  | .unsubscribe name => (b.unsubscribe name).2
  | .broadcast m => (b.broadcast m).2
  | .recv s => (b.recv s).2
  | .leave s => b.leave s

/-- A bus of some capacity, after a history. -/
def after (n : Nat) (acts : List Act) : Bus := acts.foldl act (ofCapacity n)

/-- What a subscriber that waits gets now; nothing while it has to wait. -/
def receive (b : Bus) (s : Subscription) : Option (Except StoreError Message) :=
  match (b.recv s).1 with
  | .message m => some (.ok m)
  | .empty => none
  | .closed | .overtaken =>
    some (.error (.channelClosed ((b.channel? s).elim "" (·.name))))

/-- The message that a subscription yields in an act. -/
def yield? (b : Bus) (s : Subscription) (a : Act) : Option Message :=
  if a = .recv s then (b.recv s).1.message? else none

/-- The messages that a subscription yields in a history that begins with a bus. -/
def yields (s : Subscription) : Bus → List Act → List Message
  | _, [] => []
  | b, a :: acts => (b.yield? s a).toList ++ yields s (b.act a) acts

/-- A subscription in a history: its name, and what was done since it was made. -/
structure Tenure where
  name : String
  since : List Act := []

namespace Tenure

/-- The name was not taken away. -/
def isCurrent (t : Tenure) : Bool := t.since.all fun a => !a.ends t.name

/-- The subscriber did not leave. -/
def isAttended (s : Subscription) (t : Tenure) : Bool := Act.leave s ∉ t.since

/-- The messages that were broadcast until the name was taken away. -/
def sent (t : Tenure) : List Message :=
  (t.since.takeWhile fun a => !a.ends t.name).filterMap Act.message?

/-- One more act. -/
def act (t : Tenure) (a : Act) : Tenure := { t with since := t.since ++ [a] }

end Tenure

/-- The places of the messages that were not read among the newest ones. -/
def unread (capacity : Nat) (sent : List Message) (read : List Nat) : List Nat :=
  (List.range sent.length).filter fun k => k ∉ read ∧ sent.length ≤ k + capacity

/-- The place of the message that the subscription has to yield next. -/
def Tenure.due? (capacity : Nat) (s : Subscription) (read : List Nat) (t : Tenure) : Option Nat :=
  if t.isAttended s then (unread capacity t.sent read).head? else none

/-- How many subscriptions are made in a history. -/
def made (acts : List Act) : Nat := acts.countP Act.subscribes

/-- The subscription that is made in a history after so many others. -/
def tenure? (s : Subscription) : List Act → Option Tenure
  | [] => none
  | .subscribe name :: acts =>
    match s with
    | 0 => some { name := name, since := acts }
    | s + 1 => tenure? s acts
  | _ :: acts => tenure? s acts

/-- The subscription that begins with an act, if so many were made before. -/
def begun? (s : Subscription) (before : Nat) : Act → Option Tenure
  | .subscribe name => if s = before then some { name := name } else none
  | .unsubscribe _ | .broadcast _ | .recv _ | .leave _ => none

/-- It has its name and its subscriber. -/
def stands (s : Subscription) (acts : List Act) : Bool :=
  (tenure? s acts).any fun t => t.isCurrent && t.isAttended s

/-- An account, the history and the places read, with one more act. -/
def note (capacity : Nat) (s : Subscription) (account : List Act × List Nat) (a : Act) :
    List Act × List Nat :=
  (account.1 ++ [a],
    if a = .recv s then
      account.2 ++ ((tenure? s account.1).bind (·.due? capacity s account.2)).toList
    else account.2)

/-- The places of the messages that a subscription has to yield in a history. -/
def reads (capacity : Nat) (s : Subscription) (acts : List Act) : List Nat :=
  (acts.foldl (note capacity s) ([], [])).2

/-- What the history says about a subscription comes true. -/
structure Delivers (n : Nat) (acts : List Act) (s : Subscription) (t : Tenure) : Prop where
  /-- It yields in the order of the broadcasts, and nothing twice. -/
  sorted : (reads (after n acts).capacity s acts).Pairwise (· < ·)
  yields_eq : (yields s (ofCapacity n) acts).map some =
    (reads (after n acts).capacity s acts).map (t.sent[·]?)
  sublist : (yields s (ofCapacity n) acts).Sublist t.sent
  /-- The next message is the oldest unread one among the newest. -/
  receive_eq : t.isAttended s → (after n acts).receive s =
    match (unread (after n acts).capacity t.sent (reads (after n acts).capacity s acts)).head? with
    | some k => t.sent[k]?.map .ok
    | none => if t.isCurrent then none else some (.error (.channelClosed t.name))
  /-- What is kept is the end of what was sent; a message before it was read, or is lost and as
  many later ones as the bus keeps were sent. -/
  kept : t.isAttended s → ∃ next, (after n acts).kept s = t.sent.drop next ∧
    ∀ k < next, k ∈ reads (after n acts).capacity s acts ∨
      k + (after n acts).capacity < t.sent.length
  /-- When its name is taken away, it yields what is kept, and is closed for ever. -/
  closed : t.isAttended s → t.isCurrent = false → ∀ more, .leave s ∉ more →
    yields s (ofCapacity n) (acts ++ more) = yields s (ofCapacity n) acts ++
      ((after n acts).kept s).take (more.count (.recv s)) ∧
    (((after n acts).kept s).length ≤ more.count (.recv s) →
      (after n (acts ++ more)).receive s = some (.error (.channelClosed t.name)))

/-! ## The capacity -/

/-- Rounding up gives the least power of two that is large enough. -/
lemma isLeast_roundUp (n : Nat) : IsLeast {q : Nat | q.isPowerOfTwo ∧ n ≤ q} (roundUp n) := by
  rw [roundUp]
  split
  · next hsmall =>
    exact ⟨⟨Nat.isPowerOfTwo_one, hsmall⟩, fun q hq => Nat.pos_of_isPowerOfTwo hq.1⟩
  · next hlarge =>
    -- the exponents that are large enough are those above the last bit of the number before
    have hexponent : ∀ k, n ≤ 2 ^ k ↔ (n - 1).log2 + 1 ≤ k := by
      intro k
      rw [Nat.succ_le_iff, Nat.log2_lt (by omega)]
      omega
    rw [Nat.one_shiftLeft]
    refine ⟨⟨⟨_, rfl⟩, (hexponent _).2 le_rfl⟩, ?_⟩
    rintro q ⟨⟨k, rfl⟩, hk⟩
    exact Nat.pow_le_pow_right (by decide) ((hexponent k).1 hk)

/-- The bus keeps as many messages as the least power of two that is large enough. -/
lemma isLeast_capacity (n : Nat) :
    IsLeast {q : Nat | q.isPowerOfTwo ∧ max 1 n ≤ q} (ofCapacity n).capacity :=
  isLeast_roundUp (max 1 n)

lemma capacity_act (b : Bus) (a : Act) : (b.act a).capacity = b.capacity := by
  cases a with
  | recv s =>
    rw [act, recv]
    split <;> rfl
  | _ => rfl

lemma capacity_after (n : Nat) (acts : List Act) :
    (after n acts).capacity = (ofCapacity n).capacity := by
  rw [after]
  induction acts using List.reverseRecOn with
  | nil => rfl
  | append_singleton acts a ih => rw [List.foldl_concat, capacity_act, ih]

lemma after_concat (n : Nat) (acts : List Act) (a : Act) :
    after n (acts ++ [a]) = (after n acts).act a := by simp [after]

/-! ## The history with one more act -/

lemma made_cons (a : Act) (acts : List Act) :
    made (a :: acts) = made acts + if a.subscribes then 1 else 0 := by
  simp [made, List.countP_cons]

lemma made_concat (acts : List Act) (a : Act) :
    made (acts ++ [a]) = made acts + if a.subscribes then 1 else 0 := by simp [made]

lemma tenure?_eq_none {s : Subscription} {acts : List Act} :
    tenure? s acts = none ↔ made acts ≤ s := by
  induction acts generalizing s with
  | nil => simp [tenure?, made]
  | cons a acts ih =>
    rw [made_cons]
    cases a with
    | subscribe name => cases s <;> simp [tenure?, Act.subscribes, ih]
    | _ => simp [tenure?, Act.subscribes, ih]

lemma begun?_eq_some {s : Subscription} {before : Nat} {a : Act} {t : Tenure}
    (h : begun? s before a = some t) : ∃ name, t = { name := name } := by
  cases a with
  | subscribe name =>
    rw [begun?] at h
    split at h
    · exact ⟨name, (Option.some.inj h).symm⟩
    · cases h
  | _ => cases h

/-- A subscription goes on with one more act, or begins with it. -/
lemma tenure?_concat (s : Subscription) (acts : List Act) (a : Act) :
    tenure? s (acts ++ [a]) =
      ((tenure? s acts).map (·.act a)).or (begun? s (made acts) a) := by
  induction acts generalizing s with
  | nil => cases a <;> cases s <;> simp [tenure?, made, begun?]
  | cons a' acts ih =>
    rw [made_cons]
    cases a' with
    | subscribe name =>
      cases s with
      | zero => simp [tenure?, Tenure.act]
      | succ s => cases a <;> simp [tenure?, Act.subscribes, ih, begun?]
    | _ => simp [tenure?, Act.subscribes, ih]

namespace Tenure

variable (t : Tenure) (a : Act)

@[simp] lemma name_act : (t.act a).name = t.name := rfl

lemma isCurrent_act : (t.act a).isCurrent = (t.isCurrent && !a.ends t.name) := by
  simp [isCurrent, act]

lemma isAttended_act (s : Subscription) :
    (t.act a).isAttended s = (t.isAttended s && a ≠ .leave s) := by
  simp [isAttended, act, eq_comm]

/-- Only as long as the name is not taken away, more is sent. -/
lemma sent_act :
    (t.act a).sent = if t.isCurrent then t.sent ++ a.message?.toList else t.sent := by
  have hall : t.isCurrent ↔ (t.since.takeWhile fun a => !a.ends t.name) = t.since := by
    simp [isCurrent, List.takeWhile_eq_self_iff]
  rw [sent, act, List.takeWhile_append]
  by_cases hcurrent : t.isCurrent
  · rw [if_pos hcurrent, if_pos (by rw [hall.1 hcurrent]), sent, hall.1 hcurrent,
      List.filterMap_append]
    by_cases hends : a.ends t.name
    · simp [hends, Act.message?_of_ends hends]
    · cases hm : a.message? <;> simp [hends, hm]
  · rw [if_neg hcurrent, if_neg, sent]
    exact fun hlen => hcurrent (hall.2 ((List.takeWhile_prefix _).eq_of_length hlen))

end Tenure

lemma fst_foldl_note (p : Nat) (s : Subscription) (acts : List Act) :
    (acts.foldl (note p s) ([], [])).1 = acts := by
  induction acts using List.reverseRecOn with
  | nil => rfl
  | append_singleton acts a ih => rw [List.foldl_append, List.foldl_cons, List.foldl_nil, note, ih]

lemma reads_concat (p : Nat) (s : Subscription) (acts : List Act) (a : Act) :
    reads p s (acts ++ [a]) =
      if a = .recv s then
        reads p s acts ++ ((tenure? s acts).bind (·.due? p s (reads p s acts))).toList
      else reads p s acts := by
  rw [reads, List.foldl_append, List.foldl_cons, List.foldl_nil, note, fst_foldl_note, reads]

lemma yields_append (s : Subscription) (b : Bus) (acts more : List Act) :
    yields s b (acts ++ more) = yields s b acts ++ yields s (acts.foldl act b) more := by
  induction acts generalizing b with
  | nil => rfl
  | cons a acts ih => simp [yields, ih]

lemma yields_concat (n : Nat) (s : Subscription) (acts : List Act) (a : Act) :
    yields s (ofCapacity n) (acts ++ [a]) =
      yields s (ofCapacity n) acts ++ ((after n acts).yield? s a).toList := by
  simp [yields_append, yields, after]

end Bus

/-! ## A channel act by act -/

namespace Channel

/-- What a subscriber gets depends on what is kept alone. -/
lemma recv_eq (c : Channel) : c.recv =
    (match c.pending with
      | m :: _ => .message m
      | [] => if c.registered then .empty else .closed,
      { c with pending := c.pending.tail, overtaken := false }) := by
  obtain ⟨name, registered, attended, pending, overtaken⟩ := c
  cases overtaken <;> cases pending <;> cases registered <;> rfl

/-- The message read is the first one kept. -/
lemma message?_recv (c : Channel) : c.recv.1.message? = c.pending.head? := by
  rw [recv_eq]
  cases c.pending with
  | nil => cases c.registered <;> rfl
  | cons m rest => rfl

@[simp] lemma name_deliver (p : Nat) (m : Message) (c : Channel) :
    (c.deliver p m).name = c.name := by
  rw [deliver]
  split <;> rfl

@[simp] lemma registered_deliver (p : Nat) (m : Message) (c : Channel) :
    (c.deliver p m).registered = c.registered := by
  rw [deliver]
  split <;> rfl

@[simp] lemma attended_deliver (p : Nat) (m : Message) (c : Channel) :
    (c.deliver p m).attended = c.attended := by
  rw [deliver]
  split <;> rfl

@[simp] lemma name_release (name : String) (c : Channel) :
    (Bus.release name c).name = c.name := by
  rw [Bus.release]
  split <;> rfl

@[simp] lemma registered_release (name : String) (c : Channel) :
    (Bus.release name c).registered = (c.registered && c.name ≠ name) := by
  rw [Bus.release]
  split <;> simp [*]

@[simp] lemma attended_release (name : String) (c : Channel) :
    (Bus.release name c).attended = c.attended := by
  rw [Bus.release]
  split <;> rfl

/-- The channel of a subscription after an act on the bus. -/
def act (p : Nat) (s : Subscription) (c : Channel) : Bus.Act → Channel
  | .subscribe name | .unsubscribe name => Bus.release name c
  | .broadcast m => if c.isLive then c.deliver p m else c
  | .recv s' => if s' = s then c.recv.2 else c
  | .leave s' => if s' = s then { c with attended := false, pending := [] } else c

/-- What is not registered is left as it is, except that messages are received. -/
lemma act_of_closed {p : Nat} {s : Subscription} {c : Channel} {a : Bus.Act}
    (h : c.registered = false) (hstay : a ≠ .leave s) :
    (c.act p s a).registered = false ∧ (c.act p s a).name = c.name ∧
      (c.act p s a).pending = if a = .recv s then c.pending.tail else c.pending := by
  cases a with
  | subscribe name | unsubscribe name => simp [act, h]
  | broadcast m => simp [act, isLive, h]
  | recv s' => by_cases hs : s' = s <;> simp [act, recv_eq, hs, h]
  | leave s' =>
    have hs : s' ≠ s := fun hs => hstay (by rw [hs])
    simp [act, hs, h]

end Channel

namespace Bus

lemma length_act (b : Bus) (a : Act) :
    (b.act a).channels.length = b.channels.length + if a.subscribes then 1 else 0 := by
  cases a with
  | recv s =>
    rw [act, recv]
    split <;> simp [modify, Act.subscribes]
  | _ => simp [act, subscribe, unsubscribe, broadcast, leave, modify, Act.subscribes]

lemma length_after (n : Nat) (acts : List Act) :
    (after n acts).channels.length = made acts := by
  induction acts using List.reverseRecOn with
  | nil => rfl
  | append_singleton acts a ih => rw [after_concat, length_act, ih, made_concat]

lemma channels_act (b : Bus) (a : Act) (s : Subscription) :
    (b.act a).channels[s]? = (b.channels[s]?.map (·.act b.capacity s a)).or
      ((begun? s b.channels.length a).map fun t => { name := t.name }) := by
  cases a with
  | subscribe name =>
    simp only [act, subscribe, List.getElem?_append, List.length_map, List.getElem?_map, begun?,
      Channel.act]
    split
    · next h => simp [h]
    · next h =>
      have hnone : b.channels[s]? = none := by simpa using h
      by_cases hs : s = b.channels.length
      · simp [hs]
      · have hlt : b.channels.length < s := Nat.lt_of_le_of_ne (Nat.not_lt.1 h) (Ne.symm hs)
        simp [hnone, hs, Nat.sub_ne_zero_of_lt hlt]
  | unsubscribe name => simp [act, unsubscribe, Channel.act, begun?]
  | broadcast m => simp [act, broadcast, Channel.act, begun?]
  | recv s' =>
    simp only [act, recv, channel?, Channel.act, begun?, Option.map_none, Option.or_none]
    split
    · next c hc =>
      simp only [modify, List.getElem?_modify]
      by_cases hs : s' = s
      · subst hs
        simp [hc]
      · simp [hs]
    · next hc =>
      by_cases hs : s' = s
      · subst hs
        simp [hc]
      · simp [hs]
  | leave s' =>
    simp only [act, leave, modify, List.getElem?_modify, Channel.act, begun?, Option.map_none,
      Option.or_none]
    rfl

lemma yield?_eq (b : Bus) (s : Subscription) (a : Act) :
    b.yield? s a = b.channels[s]?.bind fun c =>
      if a = .recv s then c.recv.1.message? else none := by
  rw [yield?, recv, channel?]
  cases b.channels[s]? <;> simp [Reading.message?]

/-! ## The account of a subscription -/

/-- What is kept for a subscriber: all that was sent from some place on.  Before it, everything was
read or is too old. -/
structure Keeps (p : Nat) (sent pending : List Message) (read : List Nat) (next : Nat) : Prop where
  pending_eq : pending = sent.drop next
  next_le : next ≤ sent.length
  recent : sent.length ≤ next + p
  before : ∀ k ∈ read, k < next
  gone : ∀ k < next, k ∈ read ∨ k + p < sent.length

namespace Keeps

variable {p next : Nat} {sent pending : List Message} {read : List Nat}

/-- The next message to be read is the first one kept. -/
lemma head?_unread (h : Keeps p sent pending read next) :
    (unread p sent read).head? = if next < sent.length then some next else none := by
  have hgone : ∀ k < next, (!decide (k ∉ read ∧ sent.length ≤ k + p)) = true := by
    intro k hk
    simp only [Bool.not_eq_true', decide_eq_false_iff_not, not_and, Nat.not_le]
    exact (h.gone k hk).resolve_left
  rw [unread, List.head?_filter]
  split
  · next hlt =>
    have hfresh : next ∉ read := fun hmem => Nat.lt_irrefl _ (h.before next hmem)
    exact List.find?_range_eq_some.2
      ⟨by simpa [hfresh] using h.recent, List.mem_range.2 hlt, hgone⟩
  · exact List.find?_range_eq_none.2 fun k hk => hgone k (by omega)

/-- One more message is kept, and the oldest one is dropped if there is no room for it. -/
lemma deliver {c : Channel} (h : Keeps p sent c.pending read next) (m : Message) :
    ∃ next', Keeps p (sent ++ [m]) (c.deliver p m).pending read next' := by
  have hkept : c.pending ++ [m] = (sent ++ [m]).drop next := by
    rw [h.pending_eq, List.drop_append_of_le_length h.next_le]
  have hle := h.next_le
  have hlen : (c.pending ++ [m]).length = sent.length + 1 - next := by simp [hkept]
  by_cases hfull : p < (c.pending ++ [m]).length
  · refine ⟨sent.length + 1 - p, ?_, by simp, by simp; omega, fun k hk => ?_, fun k hk => ?_⟩
    · simp only [Channel.deliver, hfull, if_true]
      rw [hlen, hkept, List.drop_drop]
      congr 1
      omega
    · have := h.before k hk
      omega
    · simp only [List.length_append, List.length_singleton]
      omega
  · refine ⟨next, by simp only [Channel.deliver, hfull, if_false]; exact hkept, by simp; omega,
      by simp; omega, h.before, fun k hk => (h.gone k hk).imp_right fun hold => ?_⟩
    simp only [List.length_append, List.length_singleton]
    omega

/-- The first message kept is read. -/
lemma recv (h : Keeps p sent pending read next) (hlt : next < sent.length) :
    pending.head? = sent[next]? ∧
      Keeps p sent pending.tail (read ++ [next]) (next + 1) := by
  obtain ⟨rfl, -, hrecent, hbefore, hgone⟩ := h
  refine ⟨by simp, by simp, hlt, by omega, fun k hk => ?_, fun k hk => ?_⟩
  · rcases List.mem_append.1 hk with hk | hk
    · exact (hbefore k hk).trans (Nat.lt_succ_self next)
    · simp [List.mem_singleton.1 hk]
  · rcases Nat.lt_succ_iff_lt_or_eq.1 hk with hk | rfl
    · exact (hgone k hk).imp_left (List.mem_append_left _)
    · simp

end Keeps

/-- A channel is what the history says about its subscription. -/
structure Books (p : Nat) (s : Subscription) (c : Channel) (t : Tenure) (read : List Nat)
    (yielded : List Message) : Prop where
  name : c.name = t.name
  registered : c.registered = t.isCurrent
  attended : c.attended = t.isAttended s
  sorted : read.Pairwise (· < ·)
  yields : yielded.map some = read.map (t.sent[·]?)
  kept : c.attended = true → ∃ next, Keeps p t.sent c.pending read next
  left : c.attended = false → c.pending = []

namespace Books

variable {p : Nat} {s : Subscription} {c : Channel} {t : Tenure} {read : List Nat}
  {yielded : List Message}

/-- A new subscription. -/
lemma new (p : Nat) (s : Subscription) (name : String) :
    Books p s { name := name } { name := name } [] [] where
  name := rfl
  registered := rfl
  attended := by simp [Tenure.isAttended]
  sorted := List.Pairwise.nil
  yields := rfl
  kept _ := ⟨0, rfl, Nat.le_refl _, by simp [Tenure.sent], by simp, by simp⟩
  left h := by simp at h

/-- What was read was sent. -/
lemma lt_of_mem (h : Books p s c t read yielded) {k : Nat} (hk : k ∈ read) :
    k < t.sent.length := by
  obtain ⟨m, -, hm⟩ : ∃ m ∈ yielded, some m = t.sent[k]? := by
    have : t.sent[k]? ∈ yielded.map some := h.yields ▸ List.mem_map_of_mem hk
    simpa using this
  exact (List.getElem?_eq_some_iff.1 hm.symm).1

lemma sublist (h : Books p s c t read yielded) : yielded.Sublist t.sent := by
  have hlt : ∀ k ∈ read, k < t.sent.length := fun _ => h.lt_of_mem
  have hyielded : yielded = (read.pmap Fin.mk hlt).map (t.sent[·]) := by
    refine (List.map_inj_right fun _ _ => Option.some.inj).1 (h.yields.trans ?_)
    rw [List.map_map, List.map_pmap, ← List.pmap_eq_map hlt]
    exact List.pmap_congr_left _ fun k _ hk _ => List.getElem?_eq_getElem hk
  rw [hyielded]
  exact List.map_getElem_sublist (h.sorted.pmap hlt fun _ _ _ _ hkl => hkl)

/-- More may be sent after it. -/
lemma yields_of_prefix (h : Books p s c t read yielded) {sent : List Message}
    (hpre : t.sent <+: sent) : yielded.map some = read.map (sent[·]?) := by
  rw [h.yields]
  refine List.map_congr_left fun k hk => ?_
  obtain ⟨more, rfl⟩ := hpre
  rw [List.getElem?_append_left (h.lt_of_mem hk)]

/-- An act in which the subscription does not yield, and after which it keeps what it has to. -/
lemma of_quiet (h : Books p s c t read yielded) {a : Act} {c' : Channel}
    (hname : c'.name = c.name) (hreg : c'.registered = (c.registered && !a.ends t.name))
    (hatt : c'.attended = (c.attended && a ≠ .leave s))
    (hkept : c'.attended = true → ∀ next, Keeps p t.sent c.pending read next →
      ∃ next', Keeps p (t.act a).sent c'.pending read next')
    (hleft : c'.attended = false → c'.pending = []) :
    Books p s c' (t.act a) read yielded where
  name := by rw [hname, h.name, Tenure.name_act]
  registered := by rw [hreg, h.registered, Tenure.isCurrent_act]
  attended := by rw [hatt, h.attended, Tenure.isAttended_act]
  sorted := h.sorted
  yields := by
    refine h.yields_of_prefix ?_
    rw [Tenure.sent_act]
    split
    · exact List.prefix_append _ _
    · exact List.prefix_rfl
  kept hc' := by
    have hc : c.attended = true := by
      rw [hatt] at hc'
      exact (Bool.and_eq_true_iff.1 hc').1
    obtain ⟨next, hnext⟩ := h.kept hc
    exact hkept hc' next hnext
  left := hleft

/-- Another act than a broadcast sends nothing. -/
lemma sent_act_of_silent {a : Act} (hm : a.message? = none) : (t.act a).sent = t.sent := by
  rw [Tenure.sent_act, hm]
  simp

/-- A name is taken away, its own or another. -/
lemma release (h : Books p s c t read yielded) {a : Act} {name : String} (hm : a.message? = none)
    (hends : a.ends t.name = decide (name = t.name)) (hstay : a ≠ .leave s) :
    Books p s (Bus.release name c) (t.act a) read yielded := by
  refine h.of_quiet (by simp) ?_ (by simp [hstay]) (fun _ next hnext => ⟨next, ?_⟩) fun hleft => ?_
  · simp [hends, h.name, eq_comm]
  · rwa [sent_act_of_silent hm, Channel.pending_release]
  · rw [Channel.pending_release]
    exact h.left (by simpa using hleft)

/-- A message is sent to it if it has its name and its subscriber. -/
lemma broadcast (h : Books p s c t read yielded) (m : Message) :
    Books p s (if c.isLive then c.deliver p m else c) (t.act (.broadcast m)) read yielded := by
  have hsent : (t.act (.broadcast m)).sent = if c.registered then t.sent ++ [m] else t.sent := by
    rw [Tenure.sent_act, h.registered]
    rfl
  split
  · next hlive =>
    obtain ⟨hreg, hatt⟩ := Bool.and_eq_true_iff.1 hlive
    refine h.of_quiet (by simp) (by simp [Act.ends]) (by simp) (fun _ next hnext => ?_)
      fun hleft => by simp [hatt] at hleft
    rw [hsent, if_pos hreg]
    exact hnext.deliver m
  · next hlive =>
    refine h.of_quiet rfl (by simp [Act.ends]) (by simp) (fun hatt next hnext => ⟨next, ?_⟩) h.left
    have hreg : ¬c.registered = true := fun hreg => hlive (by simp [Channel.isLive, hreg, hatt])
    rwa [hsent, if_neg hreg]

/-- Where nothing is kept, nothing is yielded. -/
lemma recv_of_nil (h : Books p s c t read yielded) (hpending : c.pending = []) :
    c.recv.1.message? = none ∧ Books p s c.recv.2 (t.act (.recv s)) read yielded := by
  constructor
  · rw [Channel.message?_recv, hpending, List.head?_nil]
  · refine h.of_quiet ?_ ?_ ?_ (fun _ next hnext => ⟨next, ?_⟩) fun _ => ?_
    · simp [Channel.recv_eq]
    · simp [Channel.recv_eq, Act.ends]
    · simp [Channel.recv_eq]
    · rw [sent_act_of_silent rfl, Channel.recv_eq, hpending]
      rwa [hpending] at hnext
    · simp [Channel.recv_eq, hpending]

/-- Otherwise it is the first message kept. -/
lemma recv_of_lt (h : Books p s c t read yielded) (hatt : c.attended = true) {next : Nat}
    (hnext : Keeps p t.sent c.pending read next) (hlt : next < t.sent.length) :
    Books p s c.recv.2 (t.act (.recv s)) (read ++ [next])
      (yielded ++ c.recv.1.message?.toList) := by
  have hsent : (t.act (.recv s)).sent = t.sent := sent_act_of_silent rfl
  obtain ⟨hfirst, hrest⟩ := hnext.recv hlt
  exact {
    name := by simp [Channel.recv_eq, h.name]
    registered := by simp [Channel.recv_eq, h.registered, Tenure.isCurrent_act, Act.ends]
    attended := by simp [Channel.recv_eq, h.attended, Tenure.isAttended_act]
    sorted := by
      refine List.pairwise_append.2 ⟨h.sorted, by simp, fun k hk l hl => ?_⟩
      obtain rfl : l = next := by simpa using hl
      exact hnext.before k hk
    yields := by
      rw [hsent, List.map_append, List.map_append, h.yields, Channel.message?_recv, hfirst]
      simp [hlt]
    kept := fun _ => by
      rw [hsent, Channel.recv_eq]
      exact ⟨next + 1, hrest⟩
    left := by simp [Channel.recv_eq, hatt] }

/-- The place that is due, by what is kept. -/
lemma due?_eq (h : Books p s c t read yielded) (hatt : c.attended = true) {next : Nat}
    (hnext : Keeps p t.sent c.pending read next) :
    t.due? p s read = if next < t.sent.length then some next else none := by
  rw [Tenure.due?, ← h.attended, if_pos hatt, hnext.head?_unread]

/-- It yields what is due. -/
lemma recv (h : Books p s c t read yielded) :
    Books p s c.recv.2 (t.act (.recv s)) (read ++ (t.due? p s read).toList)
      (yielded ++ c.recv.1.message?.toList) := by
  cases hatt : c.attended with
  | false =>
    have hdue : t.due? p s read = none := by simp [Tenure.due?, ← h.attended, hatt]
    obtain ⟨hyield, hbooks⟩ := h.recv_of_nil (h.left hatt)
    simpa [hdue, hyield] using hbooks
  | true =>
    obtain ⟨next, hnext⟩ := h.kept hatt
    rw [h.due?_eq hatt hnext]
    split
    · next hlt => exact h.recv_of_lt hatt hnext hlt
    · next hlt =>
      have hpending : c.pending = [] := by
        rw [hnext.pending_eq, List.drop_eq_nil_of_le (Nat.not_lt.1 hlt)]
      obtain ⟨hyield, hbooks⟩ := h.recv_of_nil hpending
      simpa [hyield] using hbooks

/-- An act that does not concern the subscription. -/
lemma other (h : Books p s c t read yielded) {a : Act} (hm : a.message? = none)
    (hends : a.ends t.name = false) (hstay : a ≠ .leave s) : Books p s c (t.act a) read yielded :=
  h.of_quiet rfl (by simp [hends]) (by simp [hstay])
    (fun _ next hnext => ⟨next, by rwa [sent_act_of_silent hm]⟩) h.left

/-- Every act keeps the account. -/
lemma act (h : Books p s c t read yielded) (a : Act) :
    Books p s (c.act p s a) (t.act a)
      (if a = .recv s then read ++ (t.due? p s read).toList else read)
      (yielded ++ (if a = .recv s then c.recv.1.message? else none).toList) := by
  cases a with
  | subscribe name | unsubscribe name =>
    simpa [Channel.act] using h.release rfl rfl (by simp)
  | broadcast m => simpa [Channel.act] using h.broadcast m
  | recv s' =>
    by_cases hs : s' = s
    · subst hs
      simpa [Channel.act] using h.recv
    · simpa [Channel.act, hs] using h.other (a := .recv s') rfl rfl (by simp)
  | leave s' =>
    by_cases hs : s' = s
    · subst hs
      have hgone : Books p s' { c with attended := false, pending := [] } (t.act (.leave s'))
          read yielded :=
        h.of_quiet rfl (by simp [Act.ends]) (by simp) (by simp) (by simp)
      simpa [Channel.act] using hgone
    · simpa [Channel.act, hs] using h.other (a := .leave s') rfl rfl (by simp [hs])

end Books

/-- A subscription and its channel, if the history made it. -/
inductive Account (p : Nat) (s : Subscription) (read : List Nat) (yielded : List Message) :
    Option Channel → Option Tenure → Prop where
  | none (hread : read = []) (hyielded : yielded = []) : Account p s read yielded none none
  | some {c : Channel} {t : Tenure} (books : Books p s c t read yielded) :
    Account p s read yielded (some c) (some t)

/-- The account of a subscription that begins is that of a new one. -/
lemma Account.begun (p : Nat) (s : Subscription) (before : Nat) (a : Act) :
    Account p s [] [] ((begun? s before a).map fun t => { name := t.name })
      (begun? s before a) := by
  cases h : begun? s before a with
  | none => exact .none rfl rfl
  | some t =>
    obtain ⟨name, rfl⟩ := begun?_eq_some h
    exact .some (Books.new p s name)

/-- The bus keeps the account of every subscription. -/
lemma account (n : Nat) (acts : List Act) (s : Subscription) :
    Account (after n acts).capacity s (reads (after n acts).capacity s acts)
      (yields s (ofCapacity n) acts) (after n acts).channels[s]? (tenure? s acts) := by
  induction acts using List.reverseRecOn with
  | nil => exact .none rfl rfl
  | append_singleton acts a ih =>
    rw [reads_concat, yields_concat, after_concat, capacity_act, channels_act, tenure?_concat,
      yield?_eq, length_after]
    generalize hc : (after n acts).channels[s]? = c at ih ⊢
    generalize ht : tenure? s acts = t at ih ⊢
    cases ih with
    | none hread hyielded =>
      simp only [Option.map_none, Option.none_or, hread, hyielded, Option.bind_none,
        Option.toList_none, List.append_nil, ite_self]
      exact .begun _ s _ a
    | some books => exact .some (books.act a)

/-! ## When the name was taken away -/

/-- A channel that is not registered yields what it keeps, and nothing comes after it. -/
lemma yields_of_closed {b : Bus} {s : Subscription} {c : Channel} (hc : b.channels[s]? = some c)
    (hclosed : c.registered = false) {more : List Act} (hstay : .leave s ∉ more) :
    yields s b more = c.pending.take (more.count (.recv s)) ∧
      ∃ c', (more.foldl act b).channels[s]? = some c' ∧ c'.registered = false ∧
        c'.name = c.name ∧ c'.pending = c.pending.drop (more.count (.recv s)) := by
  induction more generalizing b c with
  | nil => exact ⟨by simp [yields], c, hc, hclosed, rfl, by simp⟩
  | cons a more ih =>
    have hnext : (b.act a).channels[s]? = some (c.act b.capacity s a) := by
      simp [channels_act, hc]
    simp only [List.mem_cons, not_or] at hstay
    obtain ⟨hreg, hname, hpending⟩ :=
      Channel.act_of_closed (p := b.capacity) hclosed (Ne.symm hstay.1)
    obtain ⟨hyields, c', hc', hclosed', hname', hkept⟩ := ih hnext hreg hstay.2
    refine ⟨?_, c', hc', hclosed', hname'.trans hname, ?_⟩
    · rw [yields, yield?_eq, hc, Option.bind_some, Channel.message?_recv, hyields, hpending,
        List.count_cons]
      by_cases ha : a = .recv s
      · cases c.pending <;> simp [ha]
      · simp [ha]
    · rw [hkept, hpending, List.count_cons]
      by_cases ha : a = .recv s
      · cases c.pending <;> simp [ha]
      · simp [ha]

/-! ## Delivery -/

/-- What is yielded now depends on what is kept. -/
lemma receive_eq {b : Bus} {s : Subscription} {c : Channel} (hc : b.channels[s]? = some c) :
    b.receive s = (c.pending.head?.map Except.ok).or
      (if c.registered then none else some (.error (.channelClosed c.name))) := by
  rw [receive, recv, channel?, hc]
  simp only [Channel.recv_eq, Option.elim_some]
  cases c.pending with
  | nil => cases c.registered <;> rfl
  | cons m rest => rfl

lemma exists_books {n : Nat} {acts : List Act} {s : Subscription} {t : Tenure}
    (ht : tenure? s acts = some t) :
    ∃ c, (after n acts).channels[s]? = some c ∧
      Books (after n acts).capacity s c t (reads (after n acts).capacity s acts)
        (yields s (ofCapacity n) acts) := by
  have haccount := account n acts s
  rw [ht] at haccount
  generalize hc : (after n acts).channels[s]? = c at haccount
  cases haccount with
  | some books => exact ⟨_, rfl, books⟩

lemma delivers {n : Nat} {acts : List Act} {s : Subscription} {t : Tenure}
    (ht : tenure? s acts = some t) : Delivers n acts s t := by
  obtain ⟨c, hc, books⟩ := exists_books (n := n) ht
  have hkept : (after n acts).kept s = c.pending := by simp [Bus.kept, channel?, hc]
  exact {
    sorted := books.sorted
    yields_eq := books.yields
    sublist := books.sublist
    receive_eq := fun hatt => by
      obtain ⟨next, hnext⟩ := books.kept (by rw [books.attended, hatt])
      rw [receive_eq hc, hnext.head?_unread, hnext.pending_eq, List.head?_drop, books.registered,
        books.name]
      by_cases hlt : next < t.sent.length
      · simp [hlt]
      · simp [hlt]
    kept := fun hatt => by
      obtain ⟨next, hnext⟩ := books.kept (by rw [books.attended, hatt])
      exact ⟨next, by rw [hkept, hnext.pending_eq], hnext.gone⟩
    closed := fun hatt hclosed more hstay => by
      obtain ⟨hyields, c', hc', hclosed', hname, hrest⟩ :=
        yields_of_closed hc (books.registered.trans hclosed) hstay
      refine ⟨by rw [yields_append, ← after, hyields, hkept], fun hall => ?_⟩
      have hempty : c'.pending = [] := by
        rw [hrest, List.drop_eq_nil_of_le (by rwa [hkept] at hall)]
      rw [after, List.foldl_append, ← after, receive_eq hc', hempty, hclosed', hname, books.name]
      rfl }

/-- A channel is live where its subscription stands. -/
lemma map_isLive (n : Nat) (acts : List Act) :
    (after n acts).channels.map (·.isLive) =
      (List.range (made acts)).map fun s => stands s acts := by
  refine List.ext_getElem? fun s => ?_
  rw [List.getElem?_map, List.getElem?_map]
  cases ht : tenure? s acts with
  | none =>
    have hle := tenure?_eq_none.1 ht
    rw [List.getElem?_eq_none (by rwa [length_after]), List.getElem?_eq_none (by simpa using hle)]
    rfl
  | some t =>
    have hlt : s < made acts := by
      rw [← Nat.not_le, ← tenure?_eq_none, ht]
      simp
    obtain ⟨c, hc, books⟩ := exists_books (n := n) ht
    simp [hc, List.getElem?_range hlt, Channel.isLive, books.registered, books.attended, stands,
      ht]

/-- Every subscription yields what the history says, in the order of the broadcasts and at most
once: the oldest unread message among the newest, as many as the capacity is when it is rounded up
to a power of two.  A broadcast reaches the subscriptions that have their name and their
subscriber. -/
theorem delivery (n : Nat) (acts : List Act) :
    IsLeast {q : Nat | q.isPowerOfTwo ∧ max 1 n ≤ q} (after n acts).capacity ∧
      (∀ s t, tenure? s acts = some t → Delivers n acts s t) ∧
      ∀ m, ((after n acts).broadcast m).1 = (List.range (made acts)).countP (stands · acts) := by
  refine ⟨capacity_after n acts ▸ isLeast_capacity n, fun s t => delivers, fun m => ?_⟩
  calc ((after n acts).broadcast m).1
      = ((after n acts).channels.map (·.isLive)).countP id := by
        rw [List.countP_map]
        rfl
    _ = (List.range (made acts)).countP (stands · acts) := by
        rw [map_isLive, List.countP_map]
        rfl

-- a bus of capacity three keeps four messages; the first subscription is replaced and drained
example :
    let sends (ds : List String) : List Act := ds.map fun d => .broadcast ⟨"t", d⟩
    yields 0 (ofCapacity 3) (.subscribe "a" :: sends ["1", "2", "3", "4", "5"] ++ [.recv 0] ++
      sends ["6", "7"] ++ [.subscribe "a"] ++ sends ["8"] ++
      [.recv 0, .recv 0, .recv 0, .recv 0, .recv 0]) =
        [⟨"t", "2"⟩, ⟨"t", "4"⟩, ⟨"t", "5"⟩, ⟨"t", "6"⟩, ⟨"t", "7"⟩] := by
  decide +kernel

end Bus

end Convergence
