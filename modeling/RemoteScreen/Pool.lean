import RemoteScreen.Frame.Header

/-!
A fixed pool of receive buffers between the link and whoever handles the frames.

A slot is on the free list, leased to the producer, on the ready list, or leased to the consumer.
Both lists are stacks linked through the slots, and a slot is on one of them at most, so one link
per slot serves both. A lease carries the storage of its slot while it is out.
-/

namespace RemoteScreen

def maxBuffers : Nat := 10

def defaultBuffers : Nat := 2

inductive SlotState
  | free
  -- Leased to the producer, which fills it.
  | pending
  | ready
  -- Leased to the consumer.
  | inUse
deriving DecidableEq, Repr

def SlotState.name : SlotState → String
  | free => "Free"
  | pending => "Pending"
  | ready => "Ready"
  | inUse => "InUse"

structure Slot where
  state : SlotState
  -- Octets in use of the storage.
  length : Nat
  next : Option Nat
  -- Empty while the slot is leased.
  storage : Octets
deriving DecidableEq, Repr

structure Lease where
  index : Nat
  length : Nat
  storage : Octets
deriving DecidableEq, Repr

namespace Lease

-- The octets that the holder sees.
def contents (l : Lease) : Octets :=
  l.storage.take l.length

-- Writes over the front of the contents; what would pass their end is cut off.
def fill (l : Lease) (octets : Octets) : Lease :=
  { l with storage := l.storage.overwrite 0 (octets.take l.length) }

def truncate (l : Lease) (length : Nat) : Lease :=
  { l with length := min l.length length }

end Lease

structure Census where
  free : Nat
  pending : Nat
  ready : Nat
  inUse : Nat
deriving DecidableEq, Repr

def Census.total (c : Census) : Nat :=
  c.free + c.pending + c.ready + c.inUse

structure Pool where
  slots : List Slot
  free : Option Nat
  ready : Option Nat
  slotCapacity : Nat
  -- Frames that got a buffer, modulo the counter's width.
  accepted : UInt64 := 0
  -- Frames that got none, modulo the counter's width.
  dropped : UInt64 := 0
deriving DecidableEq, Repr

namespace Pool

inductive Chain
  | free
  | ready
deriving DecidableEq, Repr

def Chain.state : Chain → SlotState
  | free => .free
  | ready => .ready

def capacity (p : Pool) : Nat :=
  p.slots.length

def head (p : Pool) : Chain → Option Nat
  | .free => p.free
  | .ready => p.ready

def setHead (p : Pool) (top : Option Nat) : Chain → Pool
  | .free => { p with free := top }
  | .ready => { p with ready := top }

-- The slots of an unused pool, all on the free list in order.
def freshSlots (count slotCapacity : Nat) : List Slot :=
  (List.range count).map fun i =>
    { state := .free
      length := 0
      next := if i + 1 < count then some (i + 1) else none
      storage := Octets.zeros slotCapacity }

def makeWith (count slotCapacity : Nat) : Except Fault Pool :=
  if count = 0 ∨ slotCapacity = 0 then
    .error (.configuration s!"buffer pool of {count} x {slotCapacity} bytes")
  else
    .ok { slots := freshSlots count slotCapacity, free := some 0, ready := none, slotCapacity }

def make (count : Nat) : Except Fault Pool :=
  makeWith count maxFrameLength

-- Takes the top slot off a list, with its storage, and marks it.
def pop? (p : Pool) (chain : Chain) (mark : SlotState) : Option (Lease × Pool) := do
  let index ← p.head chain
  let slot ← p.slots[index]?
  let emptied := { slot with state := mark, next := none, storage := [] }
  return (⟨index, slot.length, slot.storage⟩,
    { p with slots := p.slots.set index emptied }.setHead slot.next chain)

-- Puts the slot of a lease on top of a list, storage and all.
def push (p : Pool) (chain : Chain) (lease : Lease) : Pool :=
  let slot : Slot := ⟨chain.state, lease.length, p.head chain, lease.storage⟩
  { p with slots := p.slots.set lease.index slot }.setHead (some lease.index) chain

def countAccepted (p : Pool) : Pool :=
  { p with accepted := p.accepted + 1 }

def countDropped (p : Pool) : Pool :=
  { p with dropped := p.dropped + 1 }

-- Leases a free buffer to the producer, for `size` octets.
def acquire (p : Pool) (size : Nat) : Except Fault Lease × Pool :=
  if p.slotCapacity < size then (.error (.frameTooLarge size p.slotCapacity), p.countDropped)
  else
    match p.pop? .free .pending with
    | none => (.error .poolExhausted, p.countDropped)
    | some (lease, p) => (.ok { lease with length := size }, p.countAccepted)

def publish (p : Pool) (lease : Lease) : Pool :=
  p.push .ready lease

-- Ends a lease: the storage is zeroed and the slot is free.
def giveBack (p : Pool) (lease : Lease) : Pool :=
  p.push .free { lease with length := 0, storage := Octets.zeros lease.storage.length }

-- Copies a frame into a free buffer and hands it to the consumer.
def receive (p : Pool) (frame : Octets) : Except Fault Unit × Pool :=
  match p.acquire frame.length with
  | (.error fault, p) => (.error fault, p)
  | (.ok lease, p) => (.ok (), p.publish (lease.fill frame))

-- Leases the buffer handed over last to the consumer.
def takeReady? (p : Pool) : Option (Lease × Pool) :=
  p.pop? .ready .inUse

def stateOf? (p : Pool) (index : Nat) : Option SlotState :=
  p.slots[index]?.map Slot.state

def count (p : Pool) (state : SlotState) : Nat :=
  p.slots.countP (·.state = state)

def census (p : Pool) : Census where
  free := p.count .free
  pending := p.count .pending
  ready := p.count .ready
  inUse := p.count .inUse

def describe (p : Pool) : String :=
  let c := p.census
  Record.whole "BufferPool" [
    ("capacity", toString p.capacity),
    ("slot_capacity", toString p.slotCapacity),
    ("census", Record.whole "PoolCensus" [
      ("free", toString c.free),
      ("pending", toString c.pending),
      ("ready", toString c.ready),
      ("in_use", toString c.inUse)]),
    ("dropped", toString p.dropped.toNat)]

end Pool

end RemoteScreen
