import Convergence.Store.Error
/-!
# The bus

Messages are broadcast to named subscriptions.  Each subscription keeps the newest messages that
were not received yet, up to the capacity of the bus; a subscriber that falls behind goes on with
the oldest message kept.  To subscribe under a name that is in use replaces the subscription.

`Bus.recv` is how a subscriber waits for messages, `Bus.tryRecv` how it looks for one at once.
-/

namespace Convergence

/-- What subscribers are sent. -/
structure Message where
  topic : String
  data : String
deriving DecidableEq, Repr

/-- What a subscription yields when it is asked. -/
inductive Reading where
  | message (m : Message)
  /-- Messages were dropped since the last time. -/
  | overtaken
  /-- There is no message now. -/
  | empty
  /-- There is no message and there will be none. -/
  | closed
deriving DecidableEq, Repr

/-- The way from the bus to one subscriber. -/
structure Channel where
  /-- The name of the subscription. -/
  name : String
  /-- The bus still sends to it. -/
  registered : Bool := true
  /-- The subscriber still holds its end. -/
  attended : Bool := true
  /-- The messages kept, oldest first. -/
  pending : List Message := []
  /-- Messages were dropped, and the subscriber was not told yet. -/
  overtaken : Bool := false
deriving DecidableEq, Repr

namespace Channel

/-- The bus sends to it, and somebody may receive. -/
def isLive (c : Channel) : Bool := c.registered && c.attended

/-- Keeps one more message, and drops the oldest ones above the capacity. -/
def deliver (capacity : Nat) (m : Message) (c : Channel) : Channel :=
  let kept := c.pending ++ [m]
  if capacity < kept.length then
    { c with pending := kept.drop (kept.length - capacity), overtaken := true }
  else { c with pending := kept }

/-- What the subscription yields now. -/
def poll (c : Channel) : Reading × Channel :=
  if c.overtaken then (.overtaken, { c with overtaken := false })
  else
    match c.pending with
    | m :: rest => (.message m, { c with pending := rest })
    | [] => (if c.registered then .empty else .closed, c)

/-- What a subscriber that waits gets now; gaps are passed over. -/
def recv (c : Channel) : Reading × Channel :=
  match c.poll with
  | (.overtaken, c) => c.poll
  | r => r

/-- What a subscriber that does not wait gets: the next message, or an error if there is none or a
gap comes first. -/
def tryRecv (c : Channel) : Except StoreError Message × Channel :=
  match c.poll with
  | (.message m, c) => (.ok m, c)
  | (_, c) => (.error (.channelClosed c.name), c)

end Channel

/-- A bus.  A subscription is known by its place in the list of channels. -/
structure Bus where
  /-- How many messages each subscription keeps. -/
  capacity : Nat := 1024
  /-- The channels of all subscriptions, the earliest first. -/
  channels : List Channel := []
deriving DecidableEq, Repr

/-- The place of a subscription's channel on the bus. -/
abbrev Subscription := Nat

namespace Bus

/-- The next power of two that is not below a number. -/
def roundUp (n : Nat) : Nat := if n ≤ 1 then 1 else 1 <<< ((n - 1).log2 + 1)

/-- A bus whose subscriptions keep at least so many messages, and at least one: the next power of
two. -/
def ofCapacity (n : Nat) : Bus := { capacity := roundUp (max 1 n) }

/-- The channel of a subscription. -/
def channel? (b : Bus) (s : Subscription) : Option Channel := b.channels[s]?

/-- The names that the bus sends to. -/
def subscribers (b : Bus) : List String := (b.channels.filter (·.registered)).map (·.name)

/-- The channel, no longer registered if it has the name. -/
def release (name : String) (c : Channel) : Channel :=
  if c.name = name then { c with registered := false } else c

/-- Removes the subscription of a name; tells whether there was one. -/
def unsubscribe (b : Bus) (name : String) : Bool × Bus :=
  (decide (name ∈ b.subscribers), { b with channels := b.channels.map (release name) })

/-- Subscribes under a name, in place of the subscription it had. -/
def subscribe (b : Bus) (name : String) : Subscription × Bus :=
  (b.channels.length,
    { b with channels := b.channels.map (release name) ++ [{ name := name }] })

/-- Changes the channel of a subscription. -/
def modify (b : Bus) (s : Subscription) (f : Channel → Channel) : Bus :=
  { b with channels := b.channels.modify s f }

/-- The subscriber leaves; the bus keeps the subscription. -/
def leave (b : Bus) (s : Subscription) : Bus :=
  b.modify s fun c => { c with attended := false, pending := [] }

/-- Sends a message to every subscription; tells how many subscribers it reaches. -/
def broadcast (b : Bus) (m : Message) : Nat × Bus :=
  (b.channels.countP (·.isLive),
    { b with channels := b.channels.map fun c => if c.isLive then c.deliver b.capacity m else c })

/-- What a subscriber that waits gets now. -/
def recv (b : Bus) (s : Subscription) : Reading × Bus :=
  match b.channel? s with
  | some c => (c.recv.1, b.modify s fun _ => c.recv.2)
  | none => (.closed, b)

/-- What a subscriber that does not wait gets. -/
def tryRecv (b : Bus) (s : Subscription) : Except StoreError Message × Bus :=
  match b.channel? s with
  | some c => (c.tryRecv.1, b.modify s fun _ => c.tryRecv.2)
  | none => (.error (.channelClosed ""), b)

/-- All that a subscriber gets without waiting until the first error. -/
def drain (b : Bus) (s : Subscription) : List Message × Bus :=
  match b.channel? s with
  | some c =>
    if c.overtaken then ([], b.modify s fun c => { c with overtaken := false })
    else (c.pending, b.modify s fun c => { c with pending := [] })
  | none => ([], b)

end Bus

end Convergence
