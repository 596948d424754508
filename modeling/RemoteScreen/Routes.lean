import RemoteScreen.Address.Basic
import RemoteScreen.Identity

/-!
Which address each station was last heard from, for as many stations as there are slots.

The slots are filled in a ring. A station that is known keeps its slot; an unknown one takes the
next, from whichever station held it.
-/

namespace RemoteScreen

def routeSlots : Nat := 16

structure Route where
  identity : Identity
  address : Address
deriving DecidableEq, Repr

structure Routes where
  slots : List (Option Route) := List.replicate routeSlots none
  next : Nat := 0
deriving DecidableEq, Repr

namespace Routes

def known (r : Routes) : List Route :=
  r.slots.filterMap id

def size (r : Routes) : Nat :=
  r.known.length

def slotOf? (r : Routes) (identity : Identity) : Option Nat :=
  r.slots.findIdx? fun slot => slot.any (·.identity = identity)

def learn (r : Routes) (identity : Identity) (address : Address) : Routes :=
  match r.slotOf? identity with
  | some i => { r with slots := r.slots.set i (some ⟨identity, address⟩) }
  | none =>
    { slots := r.slots.set r.next (some ⟨identity, address⟩)
      next := (r.next + 1) % routeSlots }

def lookup? (r : Routes) (identity : Identity) : Option Address :=
  (r.known.find? (·.identity = identity)).map Route.address

end Routes

end RemoteScreen
