import Mathlib.Data.List.DropRight
import Convergence.Proofs.Store.Delivery
/-!
# Looking without waiting

A subscriber can look for a message instead of waiting for one.  A history of uses is a history of
the bus with looks in it, and it tells when a subscription was overtaken: what was left for it when
the subscriber last asked and what was sent to it since is more than the bus keeps (`Overtaken`).

A subscriber that was not overtaken sees what it would receive, and the look takes it as receiving
does.  After it was overtaken there are messages, but the first look finds the subscription closed,
and only the next one sees the oldest of them (`look_agrees_iff`).

The two are told apart by the channel's note of a gap.  `window` says what becomes of that note and
of the messages kept while the subscriber does not ask.
-/

namespace Convergence

/-! ## Histories with looks -/

namespace Bus

/-- What is done with a bus if subscribers may look for messages, too. -/
inductive Use where
  | act (a : Act)
  | look (s : Subscription)
deriving DecidableEq, Repr

namespace Use

/-- The subscriber asks for a message. -/
def asks (s : Subscription) : Use → Bool
  | act a => a = .recv s
  | look s' => s' = s

/-- For who subscribes and what is sent, a look is no different from a reception. -/
def plain : Use → Act
  | act a => a
  | look s => .recv s

end Use

/-- The bus after one use. -/
def use (b : Bus) : Use → Bus
  | .act a => b.act a
  | .look s => (b.tryRecv s).2

/-- A bus of some capacity, after a history of uses. -/
def afterUses (n : Nat) (uses : List Use) : Bus := uses.foldl use (ofCapacity n)

/-- The subscription that is made in a history after so many others. -/
def tenureIn? (s : Subscription) (uses : List Use) : Option Tenure :=
  tenure? s (uses.map Use.plain)

/-- How many messages were sent to a subscription. -/
def sentIn (s : Subscription) (uses : List Use) : Nat :=
  (tenureIn? s uses).elim 0 (·.sent.length)

/-- Since the subscriber last asked, messages for it were dropped: those left for it then and those
sent to it since are more than the bus keeps. -/
def Overtaken (n : Nat) (s : Subscription) (uses : List Use) : Prop :=
  ∃ before since, uses = before ++ since ∧ (∀ u ∈ since, u.asks s = false) ∧
    (ofCapacity n).capacity <
      ((afterUses n before).kept s).length + (sentIn s uses - sentIn s before)

/-- Looking agrees with waiting: what is received at once is seen, and the subscription is found
closed only if nothing is received at once. -/
structure LookAgrees (b : Bus) (s : Subscription) : Prop where
  sees : ∀ m, b.receive s = some (.ok m) → (b.tryRecv s).1 = .ok m
  closed : ∀ name, (b.tryRecv s).1 = .error (.channelClosed name) →
    ∀ m, b.receive s ≠ some (.ok m)

end Bus

/-! ## A channel use by use -/

namespace Channel

/-- A look at a channel with a gap takes the note of the gap away. -/
lemma tryRecv_of_overtaken {c : Channel} (h : c.overtaken = true) :
    c.tryRecv = (.error (.channelClosed c.name), { c with overtaken := false }) := by
  simp [tryRecv, poll, h]

/-- A look at a channel without a gap takes what would be received. -/
lemma tryRecv_of_not_overtaken {c : Channel} (h : c.overtaken = false) :
    c.tryRecv = ((c.pending.head?.map Except.ok).getD (.error (.channelClosed c.name)),
      c.recv.2) := by
  obtain ⟨name, registered, attended, pending, overtaken⟩ := c
  obtain rfl : overtaken = false := h
  cases pending <;> cases registered <;> rfl

@[simp] lemma overtaken_release (name : String) (c : Channel) :
    (Bus.release name c).overtaken = c.overtaken := by
  rw [Bus.release]
  split <;> rfl

/-- The channel of a subscription after a use of the bus. -/
def use (p : Nat) (s : Subscription) (c : Channel) : Bus.Use → Channel
  | .act a => c.act p s a
  | .look s' => if s' = s then c.tryRecv.2 else c

/-- After the subscriber asked, it has been told of the gap. -/
lemma overtaken_use_of_asks {p : Nat} {s : Subscription} {c : Channel} {u : Bus.Use}
    (h : u.asks s = true) : (c.use p s u).overtaken = false := by
  cases u with
  | act a =>
    obtain rfl : a = .recv s := by simpa [Bus.Use.asks] using h
    simp [use, act, recv_eq]
  | look s' =>
    obtain rfl : s' = s := by simpa [Bus.Use.asks] using h
    cases hc : c.overtaken with
    | true => simp [use, tryRecv_of_overtaken hc]
    | false => simp [use, tryRecv_of_not_overtaken hc, recv_eq]

/-- A channel before and after so many messages came for it while its subscriber did not ask: as
many as there is room for are kept, and a gap is noted if there were more. -/
structure Grows (p k : Nat) (c c' : Channel) : Prop where
  length_eq : c'.pending.length = min p (c.pending.length + k)
  overtaken_iff : c'.overtaken = true ↔ c.overtaken = true ∨ p < c.pending.length + k

namespace Grows

variable {p k l : Nat} {c c' c'' : Channel}

lemma of_kept (hle : c.pending.length ≤ p) (hpending : c'.pending = c.pending)
    (hgap : c'.overtaken = c.overtaken) : Grows p 0 c c' where
  length_eq := by rw [hpending]; omega
  overtaken_iff := by rw [hgap, Nat.add_zero, or_iff_left (Nat.not_lt.2 hle)]

lemma trans (h : Grows p k c c') (h' : Grows p l c' c'') : Grows p (k + l) c c'' where
  length_eq := by
    rw [h'.length_eq, h.length_eq]
    omega
  overtaken_iff := by
    rw [h'.overtaken_iff, h.overtaken_iff, h.length_eq, or_assoc]
    refine or_congr_right ?_
    omega

lemma deliver (p : Nat) (m : Message) (c : Channel) : Grows p 1 c (c.deliver p m) := by
  have hlength : (c.pending ++ [m]).length = c.pending.length + 1 := by simp
  rw [Channel.deliver]
  split
  · next hfull =>
    rw [hlength] at hfull
    exact ⟨by simp; omega, by simp [hfull]⟩
  · next hroom =>
    rw [hlength] at hroom
    exact ⟨by simp; omega, by simp [hroom]⟩

end Grows

end Channel

namespace Bus

variable {n : Nat} {s : Subscription} {uses : List Use} {t : Tenure}

lemma capacity_use (b : Bus) (u : Use) : (b.use u).capacity = b.capacity := by
  cases u with
  | act a => exact capacity_act b a
  | look s =>
    rw [use, tryRecv]
    split <;> rfl

lemma afterUses_concat (n : Nat) (uses : List Use) (u : Use) :
    afterUses n (uses ++ [u]) = (afterUses n uses).use u := by simp [afterUses]

lemma capacity_afterUses (n : Nat) (uses : List Use) :
    (afterUses n uses).capacity = (ofCapacity n).capacity := by
  induction uses using List.reverseRecOn with
  | nil => rfl
  | append_singleton uses u ih => rw [afterUses_concat, capacity_use, ih]

lemma length_use (b : Bus) (u : Use) :
    (b.use u).channels.length = b.channels.length + if u.plain.subscribes then 1 else 0 := by
  cases u with
  | act a => exact length_act b a
  | look s =>
    rw [use, tryRecv]
    split <;> simp [modify, Use.plain, Act.subscribes]

lemma length_afterUses (n : Nat) (uses : List Use) :
    (afterUses n uses).channels.length = made (uses.map Use.plain) := by
  induction uses using List.reverseRecOn with
  | nil => rfl
  | append_singleton uses u ih =>
    rw [afterUses_concat, length_use, ih, List.map_append, List.map_singleton, made_concat]

lemma channels_use (b : Bus) (u : Use) (s : Subscription) :
    (b.use u).channels[s]? = (b.channels[s]?.map (·.use b.capacity s u)).or
      ((begun? s b.channels.length u.plain).map fun t => { name := t.name }) := by
  cases u with
  | act a => exact channels_act b a s
  | look s' =>
    simp only [use, tryRecv, channel?, Channel.use, Use.plain, begun?, Option.map_none,
      Option.or_none]
    by_cases hs : s' = s
    · subst hs
      cases hc : b.channels[s']? with
      | none => simp [hc]
      | some c => simp [modify, hc]
    · cases hc : b.channels[s']? with
      | none => simp [hs]
      | some c => simp [modify, hs]

/-! ## The account of a subscription -/

/-- A look keeps the account: it takes the next message, or nothing if there is a gap. -/
lemma Books.look {p : Nat} {c : Channel} {read : List Nat} {yielded : List Message}
    (h : Books p s c t read yielded) :
    ∃ read yielded, Books p s c.tryRecv.2 (t.act (.recv s)) read yielded := by
  cases hgap : c.overtaken with
  | true =>
    rw [Channel.tryRecv_of_overtaken hgap]
    refine ⟨read, yielded, h.of_quiet rfl (by simp [Act.ends]) (by simp)
      (fun _ next hnext => ⟨next, ?_⟩) h.left⟩
    rwa [Books.sent_act_of_silent rfl]
  | false =>
    rw [Channel.tryRecv_of_not_overtaken hgap]
    exact ⟨_, _, h.recv⟩

/-- Every use keeps the account. -/
lemma Books.use {p : Nat} {c : Channel} {read : List Nat} {yielded : List Message}
    (h : Books p s c t read yielded) (u : Use) :
    ∃ read yielded, Books p s (c.use p s u) (t.act u.plain) read yielded := by
  cases u with
  | act a => exact ⟨_, _, h.act a⟩
  | look s' =>
    by_cases hs : s' = s
    · subst hs
      simpa [Channel.use, Use.plain] using h.look
    · refine ⟨read, yielded, ?_⟩
      simpa [Channel.use, Use.plain, hs] using h.other (a := .recv s') rfl rfl (by simp)

/-- The bus keeps the account of every subscription, whatever it is used for. -/
lemma exists_account (n : Nat) (uses : List Use) (s : Subscription) :
    ∃ read yielded, Account (ofCapacity n).capacity s read yielded
      (afterUses n uses).channels[s]? (tenureIn? s uses) := by
  induction uses using List.reverseRecOn with
  | nil => exact ⟨[], [], .none rfl rfl⟩
  | append_singleton uses u ih =>
    rw [afterUses_concat, channels_use, capacity_afterUses, length_afterUses, tenureIn?,
      List.map_append, List.map_singleton, tenure?_concat]
    rw [tenureIn?] at ih
    generalize (afterUses n uses).channels[s]? = c at ih ⊢
    generalize tenure? s (uses.map Use.plain) = t at ih ⊢
    obtain ⟨read, yielded, haccount⟩ := ih
    cases haccount with
    | none hread hyielded =>
      refine ⟨[], [], ?_⟩
      simp only [Option.map_none, Option.none_or]
      exact .begun _ s _ u.plain
    | some books =>
      obtain ⟨read', yielded', hbooks⟩ := books.use u
      exact ⟨read', yielded', .some hbooks⟩

lemma exists_booksIn (n : Nat) (ht : tenureIn? s uses = some t) :
    ∃ c read yielded, (afterUses n uses).channels[s]? = some c ∧
      Books (ofCapacity n).capacity s c t read yielded := by
  obtain ⟨read, yielded, haccount⟩ := exists_account n uses s
  rw [ht] at haccount
  generalize (afterUses n uses).channels[s]? = c at haccount
  cases haccount with
  | some books => exact ⟨_, read, yielded, rfl, books⟩

/-! ## While the subscriber does not ask -/

namespace Books

variable {p : Nat} {c : Channel} {read : List Nat} {yielded : List Message}

/-- No more is kept than there is room for. -/
lemma length_pending_le (h : Books p s c t read yielded) : c.pending.length ≤ p := by
  cases hatt : c.attended with
  | false => simp [h.left hatt]
  | true =>
    obtain ⟨next, hnext⟩ := h.kept hatt
    have hrecent := hnext.recent
    rw [hnext.pending_eq, List.length_drop]
    omega

/-- A use in which the subscriber does not ask, nor leave. -/
lemma grows (h : Books p s c t read yielded) {u : Use} (hquiet : u.asks s = false)
    (hatt : (c.use p s u).attended = true) :
    Channel.Grows p ((t.act u.plain).sent.length - t.sent.length) c (c.use p s u) := by
  have hstill : ∀ {c' : Channel}, u.plain.message? = none → c'.pending = c.pending →
      c'.overtaken = c.overtaken →
      Channel.Grows p ((t.act u.plain).sent.length - t.sent.length) c c' := by
    intro c' hm hpending hgap
    rw [sent_act_of_silent hm, Nat.sub_self]
    exact .of_kept h.length_pending_le hpending hgap
  cases u with
  | look s' =>
    have hs : s' ≠ s := by simpa [Use.asks] using hquiet
    exact hstill rfl (by simp [Channel.use, hs]) (by simp [Channel.use, hs])
  | act a =>
    cases a with
    | subscribe name | unsubscribe name =>
      exact hstill rfl (by simp [Channel.use, Channel.act]) (by simp [Channel.use, Channel.act])
    | recv s' =>
      have hs : s' ≠ s := by simpa [Use.asks] using hquiet
      exact hstill rfl (by simp [Channel.use, Channel.act, hs])
        (by simp [Channel.use, Channel.act, hs])
    | leave s' =>
      have hs : s' ≠ s := by
        rintro rfl
        simp [Channel.use, Channel.act] at hatt
      exact hstill rfl (by simp [Channel.use, Channel.act, hs])
        (by simp [Channel.use, Channel.act, hs])
    | broadcast m =>
      have hsent : (t.act (.broadcast m)).sent =
          if c.registered then t.sent ++ [m] else t.sent := by
        rw [Tenure.sent_act, h.registered]
        rfl
      simp only [Channel.use, Channel.act, Use.plain] at hatt ⊢
      split at hatt
      · next hlive =>
        rw [if_pos hlive, hsent, if_pos (Bool.and_eq_true_iff.1 hlive).1, List.length_append,
          List.length_singleton, Nat.add_sub_cancel_left]
        exact .deliver p m c
      · next hlive =>
        have hreg : ¬c.registered = true := fun hreg => hlive (by simp [Channel.isLive, hreg, hatt])
        rw [if_neg hlive, hsent, if_neg hreg, Nat.sub_self]
        exact .of_kept h.length_pending_le rfl rfl

end Books

/-- The channel of a subscription; one where nothing is kept if it is not there yet. -/
def line (b : Bus) (s : Subscription) : Channel := (b.channel? s).getD { name := "" }

lemma pending_line (b : Bus) (s : Subscription) : (b.line s).pending = b.kept s := by
  rw [line, kept]
  cases b.channel? s <;> rfl

lemma length_line_le (n : Nat) (uses : List Use) (s : Subscription) :
    ((afterUses n uses).line s).pending.length ≤ (ofCapacity n).capacity := by
  obtain ⟨read, yielded, haccount⟩ := exists_account n uses s
  rw [line, channel?]
  generalize (afterUses n uses).channels[s]? = c at haccount ⊢
  generalize tenureIn? s uses = t at haccount
  cases haccount with
  | none => exact Nat.zero_le _
  | some books => exact books.length_pending_le

/-- The subscriber did not leave, if the subscription was made. -/
def StaysIn (s : Subscription) (uses : List Use) : Prop :=
  ∀ t ∈ tenureIn? s uses, t.isAttended s = true

lemma tenureIn?_concat (s : Subscription) (uses : List Use) (u : Use) :
    tenureIn? s (uses ++ [u]) = ((tenureIn? s uses).map (·.act u.plain)).or
      (begun? s (made (uses.map Use.plain)) u.plain) := by
  rw [tenureIn?, List.map_append, List.map_singleton, tenure?_concat, tenureIn?]

lemma StaysIn.of_concat {u : Use} (h : StaysIn s (uses ++ [u])) : StaysIn s uses := by
  intro t ht
  rw [Option.mem_def] at ht
  have hnow := h (t.act u.plain) (by rw [tenureIn?_concat, ht]; rfl)
  rw [Tenure.isAttended_act] at hnow
  exact (Bool.and_eq_true_iff.1 hnow).1

/-- One use, in which the subscriber does not ask. -/
lemma grows_concat (n : Nat) {u : Use} (hquiet : u.asks s = false)
    (hstays : StaysIn s (uses ++ [u])) :
    sentIn s uses ≤ sentIn s (uses ++ [u]) ∧
      Channel.Grows (ofCapacity n).capacity (sentIn s (uses ++ [u]) - sentIn s uses)
        ((afterUses n uses).line s) ((afterUses n (uses ++ [u])).line s) := by
  rw [StaysIn, tenureIn?_concat] at hstays
  rw [sentIn, sentIn, tenureIn?_concat, line, line, channel?, channel?, afterUses_concat,
    channels_use, capacity_afterUses, length_afterUses]
  obtain ⟨read, yielded, haccount⟩ := exists_account n uses s
  generalize (afterUses n uses).channels[s]? = c at haccount ⊢
  generalize tenureIn? s uses = t at haccount hstays ⊢
  cases haccount with
  | none hread hyielded =>
    simp only [Option.map_none, Option.none_or, Option.elim_none]
    cases hbegun : begun? s (made (uses.map Use.plain)) u.plain with
    | none => exact ⟨Nat.le_refl _, .of_kept (Nat.zero_le _) rfl rfl⟩
    | some t =>
      obtain ⟨name, rfl⟩ := begun?_eq_some hbegun
      exact ⟨Nat.le_refl _, .of_kept (Nat.zero_le _) rfl rfl⟩
  | @some c t books =>
    obtain ⟨_, _, hbooks⟩ := books.use u
    have hatt : (c.use (ofCapacity n).capacity s u).attended = true :=
      hbooks.attended.trans (hstays _ rfl)
    refine ⟨?_, books.grows hquiet hatt⟩
    change t.sent.length ≤ (t.act u.plain).sent.length
    rw [Tenure.sent_act]
    split
    · simp
    · exact Nat.le_refl _

/-- Any number of uses, in which the subscriber does not ask. -/
lemma window (n : Nat) (before : List Use) {since : List Use}
    (hquiet : ∀ u ∈ since, u.asks s = false) (hstays : StaysIn s (before ++ since)) :
    sentIn s before ≤ sentIn s (before ++ since) ∧
      Channel.Grows (ofCapacity n).capacity (sentIn s (before ++ since) - sentIn s before)
        ((afterUses n before).line s) ((afterUses n (before ++ since)).line s) := by
  induction since using List.reverseRecOn with
  | nil =>
    rw [List.append_nil, Nat.sub_self]
    exact ⟨Nat.le_refl _, .of_kept (length_line_le n before s) rfl rfl⟩
  | append_singleton since u ih =>
    rw [← List.append_assoc] at hstays ⊢
    obtain ⟨hle, hgrown⟩ := ih (fun v hv => hquiet v (List.mem_append_left _ hv)) hstays.of_concat
    obtain ⟨hle', hgrows⟩ := grows_concat n (hquiet u (by simp)) hstays
    refine ⟨hle.trans hle', ?_⟩
    have hsum := hgrown.trans hgrows
    rwa [show sentIn s (before ++ since) - sentIn s before +
      (sentIn s (before ++ since ++ [u]) - sentIn s (before ++ since)) =
        sentIn s (before ++ since ++ [u]) - sentIn s before by omega] at hsum

/-! ## Gaps -/

/-- Whatever the history, there is a last time that the subscriber asked, and it left no gap. -/
lemma exists_lastAsked (n : Nat) (s : Subscription) (uses : List Use) :
    ∃ before since, uses = before ++ since ∧ (∀ u ∈ since, u.asks s = false) ∧
      ((afterUses n before).line s).overtaken = false := by
  induction uses using List.reverseRecOn with
  | nil => exact ⟨[], [], rfl, by simp, rfl⟩
  | append_singleton uses u ih =>
    cases hasks : u.asks s with
    | false =>
      obtain ⟨before, since, rfl, hquiet, hgap⟩ := ih
      refine ⟨before, since ++ [u], by simp, fun v hv => ?_, hgap⟩
      rcases List.mem_append.1 hv with hv | hv
      · exact hquiet v hv
      · rw [List.mem_singleton.1 hv, hasks]
    | true =>
      refine ⟨uses ++ [u], [], by simp, by simp, ?_⟩
      rw [line, channel?, afterUses_concat, channels_use]
      cases (afterUses n uses).channels[s]? with
      | some c => exact Channel.overtaken_use_of_asks hasks
      | none =>
        simp only [Option.map_none, Option.none_or]
        cases begun? s (afterUses n uses).channels.length u.plain <;> rfl

/-- The channel has a gap exactly if the subscriber was overtaken. -/
lemma overtaken_line_iff (n : Nat) (hstays : StaysIn s uses) :
    ((afterUses n uses).line s).overtaken = true ↔ Overtaken n s uses := by
  constructor
  · intro hgap
    obtain ⟨before, since, rfl, hquiet, hnone⟩ := exists_lastAsked n s uses
    obtain ⟨-, hgrown⟩ := window n before hquiet hstays
    rw [hgrown.overtaken_iff, hnone, pending_line] at hgap
    exact ⟨before, since, rfl, hquiet, by simpa using hgap⟩
  · rintro ⟨before, since, rfl, hquiet, hmore⟩
    obtain ⟨-, hgrown⟩ := window n before hquiet hstays
    rw [hgrown.overtaken_iff, pending_line]
    exact Or.inr hmore

/-- Behind a gap as many messages are kept as there is room for. -/
lemma length_kept_of_overtaken (hstays : StaysIn s uses) (h : Overtaken n s uses) :
    ((afterUses n uses).kept s).length = (ofCapacity n).capacity := by
  obtain ⟨before, since, rfl, hquiet, hmore⟩ := h
  obtain ⟨-, hgrown⟩ := window n before hquiet hstays
  rw [← pending_line, hgrown.length_eq, pending_line]
  omega

/-- A subscriber that has just asked is not overtaken. -/
lemma not_overtaken_of_asks (n : Nat) (uses : List Use) {u : Use} (h : u.asks s = true) :
    ¬ Overtaken n s (uses ++ [u]) := by
  rintro ⟨before, since, hsplit, hquiet, hmore⟩
  rcases since.eq_nil_or_concat with rfl | ⟨rest, v, rfl⟩
  · have hle := length_line_le n before s
    rw [pending_line] at hle
    rw [hsplit, List.append_nil] at hmore
    omega
  · rw [List.concat_eq_append, ← List.append_assoc] at hsplit
    obtain rfl : u = v := by simpa using (List.append_inj' hsplit rfl).2
    simpa [h] using hquiet u

/-! ## What a look sees -/

section Look

variable {b : Bus} {c : Channel}

lemma tryRecv_eq (hc : b.channels[s]? = some c) :
    b.tryRecv s = (c.tryRecv.1, b.modify s fun _ => c.tryRecv.2) := by rw [tryRecv, channel?, hc]

/-- Without a gap, a look sees and takes what a subscriber that waits would receive. -/
lemma tryRecv_of_no_gap (hc : b.channels[s]? = some c) (hgap : c.overtaken = false) :
    (b.tryRecv s).1 = (b.receive s).getD (.error (.channelClosed c.name)) ∧
      (b.tryRecv s).2 = (b.recv s).2 := by
  rw [tryRecv_eq hc, Channel.tryRecv_of_not_overtaken hgap]
  constructor
  · rw [receive_eq hc]
    cases c.pending with
    | nil => cases c.registered <;> rfl
    | cons m rest => rfl
  · rw [recv, channel?, hc]

/-- Before a gap, a look finds the subscription closed, and the next one sees the message. -/
lemma tryRecv_of_gap {m : Message} {rest : List Message} (hc : b.channels[s]? = some c)
    (hgap : c.overtaken = true) (hpending : c.pending = m :: rest) :
    b.receive s = some (.ok m) ∧ (b.tryRecv s).1 = .error (.channelClosed c.name) ∧
      ((b.tryRecv s).2.tryRecv s).1 = .ok m := by
  rw [tryRecv_eq hc, Channel.tryRecv_of_overtaken hgap]
  have hnext : (b.modify s fun _ => { c with overtaken := false }).channels[s]?
      = some { c with overtaken := false } := by
    simp [modify, hc]
  refine ⟨?_, rfl, ?_⟩
  · rw [receive_eq hc, hpending]
    rfl
  · rw [tryRecv_eq hnext, Channel.tryRecv_of_not_overtaken rfl, hpending]
    rfl

end Look

/-- For a subscriber that did not leave, looking agrees with waiting exactly if it was not overtaken
since it last asked; then a look sees and takes just what would be received.  After it was
overtaken there is a message to be received, but the subscription is found closed, and only the
next look sees the message. -/
theorem look_agrees_iff (ht : tenureIn? s uses = some t) (hstays : t.isAttended s = true) :
    (LookAgrees (afterUses n uses) s ↔ ¬ Overtaken n s uses) ∧
      (¬ Overtaken n s uses →
        ((afterUses n uses).tryRecv s).1 =
          ((afterUses n uses).receive s).getD (.error (.channelClosed t.name)) ∧
        ((afterUses n uses).tryRecv s).2 = ((afterUses n uses).recv s).2) ∧
      (Overtaken n s uses → ∃ m, (afterUses n uses).receive s = some (.ok m) ∧
        ((afterUses n uses).tryRecv s).1 = .error (.channelClosed t.name) ∧
        (((afterUses n uses).tryRecv s).2.tryRecv s).1 = .ok m) := by
  have hstaysIn : StaysIn s uses := by
    intro t' ht'
    cases ht.symm.trans ht'
    exact hstays
  obtain ⟨c, read, yielded, hc, books⟩ := exists_booksIn n ht
  have hgap : c.overtaken = true ↔ Overtaken n s uses := by
    rw [← overtaken_line_iff n hstaysIn, line, channel?, hc, Option.getD_some]
  have hsees : ¬ Overtaken n s uses →
      ((afterUses n uses).tryRecv s).1 =
        ((afterUses n uses).receive s).getD (.error (.channelClosed t.name)) ∧
      ((afterUses n uses).tryRecv s).2 = ((afterUses n uses).recv s).2 := by
    intro hno
    rw [← books.name]
    exact tryRecv_of_no_gap hc (Bool.eq_false_iff.2 (mt hgap.1 hno))
  have hmisses : Overtaken n s uses → ∃ m, (afterUses n uses).receive s = some (.ok m) ∧
      ((afterUses n uses).tryRecv s).1 = .error (.channelClosed t.name) ∧
      (((afterUses n uses).tryRecv s).2.tryRecv s).1 = .ok m := by
    intro hover
    have hlength := length_kept_of_overtaken hstaysIn hover
    rw [kept, channel?, hc, Option.elim_some] at hlength
    -- the bus has room for one message at least
    have hroom : max 1 n ≤ (ofCapacity n).capacity := (isLeast_capacity n).1.2
    obtain ⟨m, rest, hpending⟩ := List.exists_cons_of_length_pos (l := c.pending) (by omega)
    rw [← books.name]
    exact ⟨m, tryRecv_of_gap hc (hgap.2 hover) hpending⟩
  refine ⟨⟨fun hagrees hover => ?_, fun hno => ⟨fun m hm => ?_, fun name hname m hm => ?_⟩⟩,
    hsees, hmisses⟩
  · obtain ⟨m, hm, hlook, -⟩ := hmisses hover
    cases hlook.symm.trans (hagrees.sees m hm)
  · rw [(hsees hno).1, hm, Option.getD_some]
  · rw [(hsees hno).1, hm] at hname
    cases hname

/-- A bus that keeps two messages, and three are sent. -/
def burst : List Use :=
  .act (.subscribe "slow") :: ["1", "2", "3"].map fun d => .act (.broadcast ⟨"topic", d⟩)

/-- The burst overtakes the subscriber: the first look finds the subscription closed, and after it
looking agrees with waiting again. -/
theorem burst_overtakes :
    ∃ t, tenureIn? 0 burst = some t ∧ t.isAttended 0 = true ∧ Overtaken 2 0 burst ∧
      ¬ LookAgrees (afterUses 2 burst) 0 ∧ LookAgrees (afterUses 2 (burst ++ [.look 0])) 0 := by
  have hburst : tenureIn? 0 burst = some ⟨"slow", burst.tail.map Use.plain⟩ := rfl
  have hlooked : tenureIn? 0 (burst ++ [.look 0]) =
      some ⟨"slow", (burst.tail ++ [Use.look 0]).map Use.plain⟩ := rfl
  have hcapacity : (ofCapacity 2).capacity = 2 := by decide +kernel
  have hover : Overtaken 2 0 burst := by
    refine ⟨[], burst, rfl, by decide, ?_⟩
    rw [hcapacity]
    decide +kernel
  obtain ⟨hagrees, -, -⟩ := look_agrees_iff (n := 2) hburst (by decide)
  obtain ⟨hagrees', -, -⟩ := look_agrees_iff (n := 2) hlooked (by decide)
  exact ⟨_, hburst, by decide, hover, fun h => hagrees.1 h hover,
    hagrees'.2 (not_overtaken_of_asks 2 burst rfl)⟩

/-- It is not so that looking always agrees with waiting. -/
theorem not_forall_look_agrees : ¬ ∀ (n : Nat) (uses : List Use) (s : Subscription) (t : Tenure),
    tenureIn? s uses = some t → t.isAttended s = true → LookAgrees (afterUses n uses) s := by
  intro hall
  have hagrees := hall 2 burst 0 _ rfl (by decide)
  have hreceive : (afterUses 2 burst).receive 0 = some (.ok ⟨"topic", "2"⟩) := by decide +kernel
  have hlook : ((afterUses 2 burst).tryRecv 0).1 = .error (.channelClosed "slow") := by
    decide +kernel
  cases hlook.symm.trans (hagrees.sees _ hreceive)

end Bus

end Convergence
