import RemoteScreen.Engine.Dispatch
import RemoteScreen.Engine.Stream

/-!
What an engine goes through: frames that come off the link, ticks, and changes of the world around
it, in any order.
-/

namespace RemoteScreen.Engine

variable {σ : Type} [Host σ]

inductive Event (σ : Type)
  | dispatch (raw : Octets)
  | tick
  -- The world around the engine moves on.
  | change (host : σ)

def step (e : Engine σ) : Event σ → Engine σ
  | .dispatch raw => e.dispatch raw
  | .tick => e.tick.2
  | .change host => { e with host }

def run (e : Engine σ) (events : List (Event σ)) : Engine σ :=
  events.foldl step e

def ticks : List (Event σ) → Nat
  | [] => 0
  | .tick :: rest => ticks rest + 1
  | _ :: rest => ticks rest

-- The engine as each tick finds it.
def ticked (e : Engine σ) : List (Event σ) → List (Engine σ)
  | [] => []
  | .tick :: rest => e :: ticked (e.step .tick) rest
  | event :: rest => ticked (e.step event) rest

-- What the link was handed in the course of the events.
def handed (e : Engine σ) (events : List (Event σ)) : List Transmission :=
  (e.run events).journal.transmissions.drop e.journal.transmissions.length

end RemoteScreen.Engine
