import RemoteScreen.Engine.Basic
import RemoteScreen.Screen.Console

/-!
A host under manual control: a clock that moves only when told to, a link that can be made to fail,
a keyboard queue of limited length, and a display that can be painted or replaced.
-/

namespace RemoteScreen

inductive Outage.Manner
  | down
  | refusal
deriving DecidableEq, Repr

structure Outage where
  manner : Outage.Manner
  -- The stations that are cut off; none stands for all.
  stations : List Identity := []
deriving DecidableEq, Repr

namespace Outage

def concerns (o : Outage) (destination : Octets) : Bool :=
  o.stations.isEmpty || o.stations.any (·.octets == destination)

def fault (o : Outage) (destination : Octets) : Fault :=
  match o.manner with
  | .down =>
    .transmission ("link down for " ++ String.ofList (destination.flatMap Hexadecimal.octet))
  | .refusal => .other "link refused"

end Outage

inductive BenchDisplay
  | screen (screen : Screen)
  -- A screen that echoes the keys typed.
  | console (screen : Screen)
  -- A display of any shape, whose octets count up from `fill` without end.
  | counting (state : DisplayState) (fill : UInt8)
deriving DecidableEq, Repr

namespace BenchDisplay

-- The octets of a counting display in a stretch.
def countUp (fill : UInt8) (start count : Nat) : Octets :=
  (List.range count).map fun i => UInt8.ofNat (start + i) + fill

def display : BenchDisplay → Display
  | screen s | console s => s.display
  | counting state fill =>
    ⟨state, countUp fill, fun start count => checksum (countUp fill start count)⟩

def echo (key : Keystroke) : BenchDisplay → BenchDisplay
  | console s => console (s.echo key)
  | other => other

end BenchDisplay

structure Bench where
  identity : Identity
  clock : UInt64 := 0
  outage? : Option Outage := none
  -- Keys that the queue still takes; it takes any number if nothing is said.
  keysLeft? : Option Nat := none
  display : BenchDisplay
deriving DecidableEq, Repr

namespace Bench

def transmit (frame : Octets) (b : Bench) : Except Fault Unit × Bench :=
  let destination := frame.take 6
  match b.outage? with
  | none => (.ok (), b)
  | some outage =>
    if outage.concerns destination then (.error (outage.fault destination), b) else (.ok (), b)

def inject (key : Keystroke) (b : Bench) : Except Fault Unit × Bench :=
  match b.keysLeft? with
  | some 0 => (.error (.other "queue full"), b)
  | some (left + 1) => (.ok (), { b with keysLeft? := some left, display := b.display.echo key })
  | none => (.ok (), { b with display := b.display.echo key })

instance : Host Bench where
  identity := identity
  transmit := transmit
  inject := inject
  display b := b.display.display
  now := clock

def setClock (b : Bench) (now : UInt64) : Bench :=
  { b with clock := now }

-- Moves the clock on; it wraps at its width.
def advance (b : Bench) (time : UInt64) : Bench :=
  { b with clock := b.clock + time }

end Bench

end RemoteScreen
