import RemoteScreen.Engine.Dispatch
import RemoteScreen.Engine.Stream
import RemoteScreen.Pool

/-!
An engine together with the pool that its frames come through.

Frames are received into the pool at any time; draining hands the ready ones to the engine, the last
received first, and frees their buffers.
-/

namespace RemoteScreen

structure Station (σ : Type) where
  engine : Engine σ
  pool : Pool

namespace Station

variable {σ : Type} [Host σ]

def receive (s : Station σ) (frame : Octets) : Except Fault Unit × Station σ :=
  let (outcome, pool) := s.pool.receive frame
  (outcome, { s with pool })

-- Handles ready frames, no more than `budget` of them, and counts them.
def drainUpTo : (budget : Nat) → Station σ → Nat × Station σ
  | 0, s => (0, s)
  | budget + 1, s =>
    match s.pool.takeReady? with
    | none => (0, s)
    | some (lease, pool) =>
      let (taken, s) :=
        drainUpTo budget ⟨s.engine.dispatch lease.contents, pool.giveBack lease⟩
      (taken + 1, s)

-- Handles every ready frame and counts them. There are no more of them than slots.
def drain (s : Station σ) : Nat × Station σ :=
  drainUpTo s.pool.capacity s

def tick (s : Station σ) : Except Fault Engine.TickOutcome × Station σ :=
  let (outcome, engine) := s.engine.tick
  (outcome, { s with engine })

inductive Event (σ : Type)
  | receive (frame : Octets)
  | drain
  | tick
  -- The world around the engine moves on.
  | change (host : σ)

def step (s : Station σ) : Event σ → Station σ
  | .receive frame => (s.receive frame).2
  | .drain => s.drain.2
  | .tick => s.tick.2
  | .change host => { s with engine.host := host }

def run (s : Station σ) (events : List (Event σ)) : Station σ :=
  events.foldl step s

end Station

end RemoteScreen
