import RemoteScreen.Circulation
import RemoteScreen.Engine.Run

/-!
A station whose receiver and mainline run side by side.

Draining is a step for every frame that the mainline takes and one for every buffer that it frees.
Between any two of them the receiver may put a frame into the pool, and the world around the engine
may move on.
-/

namespace RemoteScreen

structure Mainline (σ : Type) where
  engine : Engine σ
  circulation : Circulation

namespace Mainline

variable {σ : Type} [Host σ]

-- A station before anything has happened to it.
def start (engine : Engine σ) (pool : Pool) : Mainline σ :=
  ⟨engine, { pool }⟩

inductive Event (σ : Type)
  | receive (frame : Octets)
  -- Takes the frame that was handed over last, if there is one, and handles it.
  | take
  -- Frees the buffer that was taken last.
  | release
  | tick
  -- The world around the engine moves on.
  | change (host : σ)

def step (m : Mainline σ) : Event σ → Mainline σ
  | .receive frame => { m with circulation := m.circulation.step (.receive frame) }
  | .take =>
    match m.circulation.pool.takeReady? with
    | none => m
    | some (lease, _) => ⟨m.engine.dispatch lease.contents, m.circulation.step .takeReady⟩
  | .release => { m with circulation := m.circulation.step (.release 0) }
  | .tick => { m with engine := m.engine.tick.2 }
  | .change host => { m with engine.host := host }

def run (m : Mainline σ) (events : List (Event σ)) : Mainline σ :=
  events.foldl step m

-- What the engine goes through in an event, if it takes part in it.
def act? (m : Mainline σ) : Event σ → Option (Engine.Event σ)
  | .take => m.circulation.pool.takeReady?.map fun (lease, _) => .dispatch lease.contents
  | .tick => some .tick
  | .change host => some (.change host)
  | .receive _ | .release => none

def acts (m : Mainline σ) : List (Event σ) → List (Engine.Event σ)
  | [] => []
  | event :: rest => (m.act? event).toList ++ acts (m.step event) rest

end Mainline

end RemoteScreen
