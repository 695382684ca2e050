import RailBus.Message

/-!
# Inboxes

Inbound messages in order of arrival, read by polling.
-/

namespace RailBus

structure Inbox where
  messages : List Message := []
  deriving DecidableEq

namespace Inbox

def push (b : Inbox) (m : Message) : Inbox := ⟨b.messages ++ [m]⟩

def pop (b : Inbox) : Inbox × Option Message := (⟨b.messages.tail⟩, b.messages.head?)

/-- Takes the oldest message that `p` holds of and leaves the others in order. -/
def popMatching (b : Inbox) (p : Message → Bool) : Inbox × Option Message :=
  (⟨b.messages.eraseP p⟩, b.messages.find? p)

def drain (b : Inbox) : Inbox × List Message := ({}, b.messages)

def clear (_ : Inbox) : Inbox := {}

def size (b : Inbox) : Nat := b.messages.length

def isEmpty (b : Inbox) : Bool := b.messages.isEmpty

end Inbox
end RailBus
