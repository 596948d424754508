import RemoteScreen.Identity

/-!
Sessions and the table of fixed size that holds them.

A session is named by its station and the nonce that the station chose. A full table refuses new
sessions; a slot comes back only when its session has been idle for longer than the lifetime. Idle
time is measured on a clock that wraps.
-/

namespace RemoteScreen

def defaultSessions : Nat := 4

structure Session where
  identity : Identity
  nonce : UInt32
  -- The clock when the session was last started or refreshed.
  lastActivity : UInt64
deriving DecidableEq, Repr

namespace Session

def isNamed (s : Session) (identity : Identity) (nonce : UInt32) : Bool :=
  s.identity == identity && s.nonce == nonce

def isExpired (s : Session) (now lifetime : UInt64) : Bool :=
  lifetime < now - s.lastActivity

end Session

structure SessionTable where
  slots : List (Option Session)
deriving DecidableEq, Repr

namespace SessionTable

inductive Started
  | created
  | refreshed
deriving DecidableEq, Repr

def make (capacity : Nat) : Except Fault SessionTable :=
  if capacity = 0 then .error (.configuration "session table capacity must be at least 1")
  else .ok ⟨List.replicate capacity none⟩

def capacity (t : SessionTable) : Nat :=
  t.slots.length

def active (t : SessionTable) : List Session :=
  t.slots.filterMap id

def activeCount (t : SessionTable) : Nat :=
  t.active.length

def isEmpty (t : SessionTable) : Bool :=
  t.active.isEmpty

def find? (t : SessionTable) (identity : Identity) (nonce : UInt32) : Option Session :=
  t.active.find? (·.isNamed identity nonce)

def slotOf? (t : SessionTable) (identity : Identity) (nonce : UInt32) : Option Nat :=
  t.slots.findIdx? fun slot => slot.any (·.isNamed identity nonce)

def vacancy? (t : SessionTable) : Option Nat :=
  t.slots.findIdx? Option.isNone

-- Refreshes the named session, or else makes it in the first empty slot.
def start (t : SessionTable) (identity : Identity) (nonce : UInt32) (now : UInt64) :
    Except Fault (Started × SessionTable) :=
  let session : Session := ⟨identity, nonce, now⟩
  match t.slotOf? identity nonce with
  | some i => .ok (.refreshed, ⟨t.slots.set i (some session)⟩)
  | none =>
    match t.vacancy? with
    | some i => .ok (.created, ⟨t.slots.set i (some session)⟩)
    | none => .error (.tableFull t.capacity)

def isStale (now lifetime : UInt64) (slot : Option Session) : Bool :=
  slot.any (·.isExpired now lifetime)

-- Empties the slots whose session has been idle for too long, and counts them.
def reap (t : SessionTable) (now lifetime : UInt64) : Nat × SessionTable :=
  (t.slots.countP (isStale now lifetime),
    ⟨t.slots.map fun slot => if isStale now lifetime slot then none else slot⟩)

end SessionTable

end RemoteScreen
