import RemoteScreen.Pool

/-!
A pool together with the leases that are out.

The producer and the consumer each hold any number of leases, and every lease ends once: its slot is
handed on or freed. A lease that goes out of scope frees its slot by itself, unless its storage has
gone back already. Receiving a frame takes a lease, fills it and hands it on; where other steps come
in between, these three are steps of their own.
-/

namespace RemoteScreen

inductive Holder
  | producer
  | consumer
deriving DecidableEq, Repr

def Holder.state : Holder → SlotState
  | producer => .pending
  | consumer => .inUse

-- A lease whose storage went back into the pool.
def Lease.emptied (l : Lease) : Lease :=
  { l with storage := [] }

namespace Pool

-- Lets a lease go out of scope.
def drop (p : Pool) (lease : Lease) : Pool :=
  if lease.storage = [] then p else p.giveBack lease

-- Hands the contents of a lease on, after which the lease goes out of scope.
def markReady (p : Pool) (lease : Lease) : Pool :=
  (p.publish lease).drop lease.emptied

-- Frees the slot of a lease, after which the lease goes out of scope.
def release (p : Pool) (lease : Lease) : Pool :=
  (p.giveBack lease).drop lease.emptied

end Pool

structure Circulation where
  pool : Pool
  -- Leases of the producer, the latest first.
  pending : List Lease := []
  -- Leases of the consumer, the latest first.
  inUse : List Lease := []
deriving DecidableEq, Repr

namespace Circulation

def held (c : Circulation) : Holder → List Lease
  | .producer => c.pending
  | .consumer => c.inUse

def setHeld (c : Circulation) (leases : List Lease) : Holder → Circulation
  | .producer => { c with pending := leases }
  | .consumer => { c with inUse := leases }

-- Ends the lease at a place among those held, if there is one.
def finish (c : Circulation) (holder : Holder) (place : Nat) (f : Pool → Lease → Pool) :
    Circulation :=
  match (c.held holder)[place]? with
  | none => c
  | some lease =>
    { c with pool := f c.pool lease }.setHeld ((c.held holder).eraseIdx place) holder

-- What the producer and the consumer can do. Leases are named by their place among those held.
inductive Event
  | acquire (size : Nat)
  | fill (place : Nat) (octets : Octets)
  | truncate (place length : Nat)
  | markReady (place : Nat)
  | dropPending (place : Nat)
  | receive (frame : Octets)
  | takeReady
  | release (place : Nat)
  | dropReady (place : Nat)

def step (c : Circulation) : Event → Circulation
  | .acquire size =>
    match c.pool.acquire size with
    | (.error _, pool) => { c with pool }
    | (.ok lease, pool) => { c with pool, pending := lease :: c.pending }
  | .fill place octets => { c with pending := c.pending.modify place (·.fill octets) }
  | .truncate place length => { c with pending := c.pending.modify place (·.truncate length) }
  | .markReady place => c.finish .producer place Pool.markReady
  | .dropPending place => c.finish .producer place Pool.drop
  | .receive frame => { c with pool := (c.pool.receive frame).2 }
  | .takeReady =>
    match c.pool.takeReady? with
    | none => c
    | some (lease, pool) => { c with pool, inUse := lease :: c.inUse }
  | .release place => c.finish .consumer place Pool.release
  | .dropReady place => c.finish .consumer place Pool.drop

def run (c : Circulation) (events : List Event) : Circulation :=
  events.foldl step c

end Circulation

end RemoteScreen
