import LiveTemplate.Identity

/-!
# Channels

A channel keeps its subscribers in the order of their registration.  A notification takes a copy of
the list and goes through it; a subscriber that is no longer registered when its turn comes is
passed over, and one that registered since the copy was taken waits for the next notification.
-/

namespace LiveTemplate

/-- Registered callbacks with their numbers, and the number of the next registration. -/
structure Channel (Callback : Type) where
  subscribers : List (SubscriptionId × Callback) := []
  next : SubscriptionId := 0

namespace Channel

variable {Callback : Type}

instance : Inhabited (Channel Callback) := ⟨{}⟩

/-- Register a callback.  Every registration gets a number of its own. -/
def subscribe (channel : Channel Callback) (callback : Callback) : Channel Callback :=
  { subscribers := channel.subscribers ++ [(channel.next, callback)]
    next := channel.next + 1 }

/-- Whether a registration is still in force. -/
def isSubscribed (channel : Channel Callback) (id : SubscriptionId) : Bool :=
  channel.subscribers.any (·.1 == id)

/-- End a registration.  Other numbers are left alone. -/
def unsubscribe (channel : Channel Callback) (id : SubscriptionId) : Channel Callback :=
  { channel with subscribers := channel.subscribers.filter (·.1 != id) }

/-- The number of registrations in force. -/
def size (channel : Channel Callback) : Nat :=
  channel.subscribers.length

end Channel

/-- Go through a list of registrations.  `current` looks up the channel in the state that the
earlier callbacks left behind; `call` runs one callback. -/
def deliver {State Callback : Type} (current : State → Channel Callback)
    (call : Callback → State → State) : List (SubscriptionId × Callback) → State → State
  | [], state => state
  | (id, callback) :: later, state =>
    if (current state).isSubscribed id then deliver current call later (call callback state)
    else deliver current call later state

/-- Notify the subscribers that are registered now. -/
def notify {State Callback : Type} (current : State → Channel Callback)
    (call : Callback → State → State) (state : State) : State :=
  deliver current call (current state).subscribers state

end LiveTemplate
