import Mathlib.Data.List.Chain
import Mathlib.Data.List.Flatten
import RemoteScreen.Proofs.Engine.Mainline
import RemoteScreen.Proofs.Keyboard.Frames

namespace RemoteScreen

-- What becomes of a frame: it arrives in the pool, and later it is handled.
inductive Move
  | arrive (frame : Octets)
  | handle (frame : Octets)

namespace Move

def arrived? : Move → Option Octets
  | arrive frame => some frame
  | handle _ => none

def handled? : Move → Option Octets
  | arrive _ => none
  | handle frame => some frame

end Move

def arrivals (moves : List Move) : List Octets :=
  moves.filterMap Move.arrived?

def handled (moves : List Move) : List Octets :=
  moves.filterMap Move.handled?

-- Of the frames that wait, the one that arrived last is handled first.
inductive Lifo : (waiting : List Octets) → List Move → Prop
  | nil {waiting : List Octets} : Lifo waiting []
  | arrive {frame : Octets} {waiting : List Octets} {moves : List Move} :
    Lifo (frame :: waiting) moves → Lifo waiting (.arrive frame :: moves)
  | handle {frame : Octets} {waiting : List Octets} {moves : List Move} :
    Lifo waiting moves → Lifo (frame :: waiting) (.handle frame :: moves)

-- Between any two frames that arrive, one is handled.
def Unhurried (moves : List Move) : Prop :=
  moves.IsChain fun x y => ¬ (x.arrived?.isSome ∧ y.arrived?.isSome)

instance (moves : List Move) : Decidable (Unhurried moves) :=
  inferInstanceAs <| Decidable <| moves.IsChain fun x y => ¬ (x.arrived?.isSome ∧ y.arrived?.isSome)

section Lifo

variable {waiting : List Octets} {moves : List Move}

-- No frame is handled that has not arrived, and none is handled twice.
theorem Lifo.perm (h : Lifo waiting moves) :
    ∃ left, (handled moves ++ left).Perm (arrivals moves ++ waiting) := by
  induction h
  case nil waiting => exact ⟨waiting, .refl _⟩
  case arrive hi =>
    have ⟨left, hp⟩ := hi
    exact ⟨left, hp.trans List.perm_middle⟩
  case handle frame _ _ _ hi =>
    have ⟨left, hp⟩ := hi
    exact ⟨left, (hp.cons frame).trans List.perm_middle.symm⟩

theorem Lifo.handled_subset (h : Lifo [] moves) : handled moves ⊆ arrivals moves := by
  have ⟨left, hp⟩ := h.perm
  rw [List.append_nil] at hp
  exact fun _ hf => hp.subset (List.mem_append_left left hf)

-- By induction on the moves. At most one frame waits, so it is at once the last and the first.
theorem Lifo.sublist_of_unhurried (moves : List Move) :
    (Lifo [] moves → Unhurried moves → (handled moves).Sublist (arrivals moves)) ∧
    ∀ frame, Lifo [frame] moves → Unhurried (.arrive frame :: moves) →
      (handled moves).Sublist (frame :: arrivals moves) := by
  induction moves
  case nil => exact ⟨fun _ _ => .refl _, fun _ _ _ => List.nil_sublist _⟩
  case cons move rest hi =>
    constructor
    case left =>
      intro h hu
      cases h
      case arrive frame h => exact hi.right frame h hu
    case right =>
      intro frame h hu
      have ⟨hne, hu⟩ := List.isChain_cons_cons.mp hu
      cases h
      case arrive => exact absurd ⟨rfl, rfl⟩ hne
      case handle h => exact (hi.left h hu.tail).cons_cons _

theorem Lifo.sublist (h : Lifo [] moves) (hu : Unhurried moves) :
    (handled moves).Sublist (arrivals moves) :=
  (Lifo.sublist_of_unhurried moves).left h hu

end Lifo

namespace Mainline

variable {σ : Type} [Host σ] {m : Mainline σ}

-- What an event means for a frame. A frame that the pool refuses does not arrive.
def move? (m : Mainline σ) : Event σ → Option Move
  | .receive frame =>
    match (m.circulation.pool.receive frame).1 with
    | .ok () => some (.arrive frame)
    | .error _ => none
  | .take => m.circulation.pool.takeReady?.map fun (lease, _) => .handle lease.contents
  | .release | .tick | .change _ => none

def moves (m : Mainline σ) : List (Event σ) → List Move
  | [] => []
  | event :: rest => (m.move? event).toList ++ moves (m.step event) rest

-- The frames that the receiver has for the pool.
def received (events : List (Event σ)) : List Octets :=
  events.filterMap fun
    | .receive frame => some frame
    | _ => none

theorem arrivals_moves (m : Mainline σ) (events : List (Event σ)) :
    (arrivals (m.moves events)).Sublist (received events) := by
  induction events generalizing m
  case nil => exact .refl _
  case cons event rest hi =>
    have hi := hi (m.step event)
    rw [moves, arrivals, List.filterMap_append]
    cases event
    case receive frame =>
      rw [move?]
      split
      case h_1 => exact hi.cons_cons frame
      case h_2 => exact hi.cons frame
    case take =>
      rw [move?]
      cases m.circulation.pool.takeReady? <;> exact hi
    all_goals exact hi

-- The frames that are handled are those that the engine goes through.
theorem handled_moves (m : Mainline σ) (events : List (Event σ)) :
    handled (m.moves events) = Engine.dispatched (m.acts events) := by
  induction events generalizing m
  case nil => rfl
  case cons event rest hi =>
    rw [moves, acts, handled, Engine.dispatched, List.filterMap_append, List.filterMap_append]
    refine congr (congrArg _ ?_) (hi _)
    cases event
    case receive frame =>
      rw [move?, act?]
      split <;> rfl
    case take =>
      rw [move?, act?]
      cases m.circulation.pool.takeReady? <;> rfl
    all_goals rfl

-- What a move does to the frames that wait.
def Move.Takes (waiting : List Octets) : Option Move → List Octets → Prop
  | none, waiting' => waiting' = waiting
  | some (.arrive frame), waiting' => waiting' = frame :: waiting
  | some (.handle frame), waiting' => waiting = frame :: waiting'

omit [Host σ] in
theorem takes_move {count : Nat} {s : Stacks} (h : m.circulation.Shows count s)
    (event : Event σ) :
    Move.Takes (s.ready.map Parcel.contents) (m.move? event)
      ((s.run (poolEvent? event).toList).ready.map Parcel.contents) := by
  cases event
  case receive frame =>
    cases h.acquire_cases frame.length
    case inl ha =>
      obtain ⟨_, hp, hs⟩ := ha
      have hr : (s.run [.receive frame]).ready = s.ready := by
        rw [Stacks.run, List.foldl_cons, Stacks.step, hs]
        rfl
      rw [move?, Pool.receive, hp]
      exact congrArg (List.map Parcel.contents) hr
    case inr ha =>
      obtain ⟨_, _, x, s', hp, hs, _⟩ := ha
      obtain ⟨_, _, _, _, _, hs'⟩ := Stacks.lease_eq_ok hs
      have hr : (s.run [.receive frame]).ready = { x with contents := frame } :: s.ready := by
        rw [Stacks.run, List.foldl_cons, Stacks.step, hs, hs']
        rfl
      rw [move?, Pool.receive, hp]
      exact congrArg (List.map Parcel.contents) hr
  case take =>
    cases h.takeReady_cases
    case inl ht =>
      have hr : (s.run [.takeReady]).ready = s.ready := by
        rw [Stacks.run, List.foldl_cons, Stacks.step, ht.right]
        rfl
      rw [move?, ht.left]
      exact congrArg (List.map Parcel.contents) hr
    case inr ht =>
      obtain ⟨lease, _, x, s', hp, hs, hv, _⟩ := ht
      obtain ⟨ready, hx, hs'⟩ := Stacks.take?_eq_some hs
      have hr : (s.run [.takeReady]).ready = ready := by
        rw [Stacks.run, List.foldl_cons, Stacks.step, hs, hs']
        rfl
      injection hv with _ hc
      rw [move?, hp]
      change s.ready.map Parcel.contents = lease.contents :: _
      rw [hx, poolEvent?, Option.toList_some, hr, hc, List.map_cons]
  case release =>
    have hr : (s.run [.release 0]).ready = s.ready := by
      rw [Stacks.run, List.foldl_cons, Stacks.step, Stacks.finish]
      split <;> rfl
    exact congrArg (List.map Parcel.contents) hr
  all_goals rfl

theorem lifo_moves {count : Nat} {s : Stacks} (h : m.circulation.Shows count s)
    (hc : s.slotCapacity ≠ 0) (events : List (Event σ)) :
    Lifo (s.ready.map Parcel.contents) (m.moves events) := by
  induction events generalizing m s
  case nil => exact .nil
  case cons event rest hi =>
    have hn : (m.step event).circulation.Shows count (s.run (poolEvent? event).toList) := by
      rw [circulation_step]
      exact h.run hc _
    have hl := hi hn (s.slotCapacity_run _ ▸ hc)
    have ht := takes_move h event
    rw [moves]
    cases hm : m.move? event
    case none => rw [hm] at ht; exact ht ▸ hl
    case some move =>
      rw [hm] at ht
      cases move
      case arrive frame => exact .arrive (ht ▸ hl)
      case handle frame => exact ht ▸ .handle hl

-- A frame arrives in a buffer that was free.
omit [Host σ] in
theorem free_ne_nil_of_arrive {count : Nat} {s : Stacks} {event : Event σ} {frame : Octets}
    (h : m.circulation.Shows count s) (hm : m.move? event = some (.arrive frame)) :
    s.free ≠ [] := by
  cases event
  case receive raw =>
    cases h.acquire_cases raw.length
    case inl ha =>
      obtain ⟨_, hp, _⟩ := ha
      rw [move?, Pool.receive, hp] at hm
      contradiction
    case inr ha =>
      obtain ⟨_, _, _, _, _, hs, _⟩ := ha
      obtain ⟨_, _, _, hf, _⟩ := Stacks.lease_eq_ok hs
      simp [hf]
  case take =>
    rw [move?, Option.map_eq_some_iff] at hm
    simp at hm
  all_goals contradiction

-- By induction on the events. With a single buffer, no frame arrives while another one waits.
theorem unhurried_moves {s : Stacks} (h : m.circulation.Shows 1 s) (hc : s.slotCapacity ≠ 0)
    (events : List (Event σ)) :
    Unhurried (m.moves events) ∧
      (s.ready ≠ [] → ∀ move ∈ (m.moves events).head?, move.arrived? = none) := by
  induction events generalizing m s
  case nil => exact ⟨.nil, by simp [moves]⟩
  case cons event rest hi =>
    have hn : (m.step event).circulation.Shows 1 (s.run (poolEvent? event).toList) := by
      rw [circulation_step]
      exact h.run hc _
    have ⟨later, next⟩ := hi hn (s.slotCapacity_run _ ▸ hc)
    have ht := takes_move h event
    rw [moves]
    cases hm : m.move? event
    case none =>
      rw [hm] at ht
      refine ⟨later, fun hr => next fun hr' => hr ?_⟩
      rw [hr'] at ht
      exact List.map_eq_nil_iff.mp ht.symm
    case some move =>
      rw [hm] at ht
      cases move
      case handle =>
        exact ⟨List.isChain_cons.mpr ⟨by simp [Move.arrived?], later⟩, by simp [Move.arrived?]⟩
      case arrive frame =>
        have hr : (s.run (poolEvent? event).toList).ready ≠ [] := by
          intro hr'
          rw [hr'] at ht
          contradiction
        refine ⟨List.isChain_cons.mpr ⟨fun y hy => ?_, later⟩, fun hw => ?_⟩
        case refine_1 => simp [next hr y hy]
        case refine_2 => exact absurd (h.free_eq_nil hw) (free_ne_nil_of_arrive h hm)

-- With no frame waiting to begin with, those that are handled are the last that have arrived.
theorem Reachable.lifo (hm : m.Reachable) (hq : m.circulation.pool.takeReady? = none)
    (events : List (Event σ)) : Lifo [] (m.moves events) := by
  have ⟨count, s, hc, hs⟩ := hm.shows
  have hz : s.ready = [] := by
    cases hs.takeReady_cases
    case inl h => exact Stacks.take?_eq_none_iff.mp h.right
    case inr h =>
      have ⟨_, _, _, _, h, _⟩ := h
      rw [h] at hq
      contradiction
  have hl := lifo_moves hs hc events
  rw [hz] at hl
  exact hl

theorem Reachable.unhurried (hm : m.Reachable) (h : m.circulation.pool.capacity = 1)
    (events : List (Event σ)) : Unhurried (m.moves events) := by
  have ⟨count, s, hc, hs⟩ := hm.shows
  have hn : count = 1 := hs.sound.count.symm.trans h
  exact (unhurried_moves (hn ▸ hs) hc events).left

theorem received_of_dispatched {events : List (Event σ)} (h : Lifo [] (m.moves events)) :
    Engine.dispatched (m.acts events) ⊆ received events := by
  rw [← handled_moves]
  exact fun _ hf => (m.arrivals_moves events).subset (h.handled_subset hf)

theorem ne_tick_of_acts {events : List (Event σ)} (h : ∀ event ∈ events, event ≠ .tick) :
    ∀ act ∈ m.acts events, act ≠ .tick := by
  induction events generalizing m
  case nil => simp [acts]
  case cons event rest hi =>
    intro act hx
    rw [acts, List.mem_append] at hx
    cases hx
    case inr hx => exact hi (fun x hm => h x (.tail _ hm)) act hx
    case inl hx =>
      rw [Option.mem_toList] at hx
      cases event
      case tick => exact absurd rfl (h _ (.head _))
      case take =>
        rw [act?, Option.map_eq_some_iff] at hx
        obtain ⟨_, _, he⟩ := hx
        simp [← he]
      case change => simp [← Option.some.inj hx]
      all_goals contradiction

end Mainline

-- Keys of a frame at a time, all in order.
theorem sublist_of_follows {pieces : List (List Injection)} {raws : List Octets}
    (h : List.Forall₂ (fun typed raw => Follows typed (keysOf raw)) pieces raws) :
    (pieces.flatten.map Injection.key).Sublist (raws.flatMap keysOf) := by
  induction h
  case nil => exact .refl _
  case cons hf _ hi =>
    rw [List.flatten_cons, List.map_append, List.flatMap_cons]
    exact hf.order.sublist.append hi

-- The keys in the frames that a client has sent are those it was to send, but perhaps the last.
theorem Client.flatMap_keysOf_sent (c : Client) (target : Identity) (nonce : UInt32)
    (keys : List Keystroke) :
    ((c.sentSince (c.sendKeys target nonce keys).2).flatMap keysOf) <+: keys := by
  have ⟨front, hf, _, hs⟩ := c.sentSince_sendKeys target nonce keys
  have hk : ∀ batch ∈ front, keysOf (c.keyFrame target nonce batch).encode = batch :=
    fun batch hm => keysOf_keyFrame <| length_of_mem_batches (hf.subset hm)
  have he : (front.map fun batch => (c.keyFrame target nonce batch).encode).flatMap keysOf
      = front.flatten := by
    rw [List.flatMap_map, List.flatMap_def, List.map_congr_left hk, List.map_id']
  have ⟨back, hb⟩ := hf
  rw [hs, he]
  refine ⟨back.flatten, ?_⟩
  rw [← List.flatten_append, hb, flatten_batches]

namespace Mainline

variable {σ : Type} [Host σ] {m : Mainline σ}

-- How the keys of a live session come to be typed, whatever receiver and mainline do in between.
structure TypesKeys (m : Mainline σ) (keys : List Keystroke) (events : List (Event σ))
    (pieces : List (List Injection)) : Prop where
  types   : m.engine.Types pieces.flatten (m.run events).engine
  -- The keys of every frame that is handled are typed together and in order.
  follows : List.Forall₂ (fun typed raw => Follows typed (keysOf raw)) pieces
    (handled (m.moves events))
  lifo    : Lifo [] (m.moves events)
  once    : ∃ left, (handled (m.moves events) ++ left).Perm (arrivals (m.moves events))
  arrived : (arrivals (m.moves events)).Sublist (received events)
  sent    : ((received events).flatMap keysOf).Sublist keys
  ordered : Unhurried (m.moves events) → (pieces.flatten.map Injection.key).Sublist keys
  -- With a single buffer it is always so.
  single  : m.circulation.pool.capacity = 1 → Unhurried (m.moves events)

end Mainline

namespace Engine.Sample

def client : Client where
  identity  := station
  server    := .v4 127 0 0 1 9000
  broadcast := .v4 127 0 0 1 9000

-- One key more than a frame takes.
def keys : List Keystroke :=
  List.replicate keysPerFrame (.plain 97) ++ [.plain 98]

def keyFrame (batch : List Keystroke) : Octets :=
  (client.keyFrame bench.identity 7 batch).encode

theorem batches_keys :
    Client.batches keys = [List.replicate keysPerFrame (.plain 97), [.plain 98]] := by
  have hl : (List.replicate keysPerFrame (Keystroke.plain 97)).length = keysPerFrame :=
    List.length_replicate
  have hk : keys ≠ [] := List.append_ne_nil_of_right_ne_nil _ nofun
  rw [Client.batches_cons hk, keys, List.take_left' hl, List.drop_left' hl]
  have hb : Client.batches [.plain 98] = [[.plain 98]] :=
    Client.batches_of_le (List.cons_ne_nil _ _) (by decide)
  rw [hb]

theorem sent_keys :
    client.sentSince (client.sendKeys bench.identity 7 keys).2
      = [keyFrame (List.replicate keysPerFrame (.plain 97)), keyFrame [.plain 98]] := by
  have ⟨front, _, ho, hs⟩ := client.sentSince_sendKeys bench.identity 7 keys
  rw [hs, ho rfl, batches_keys]
  rfl

end Engine.Sample

namespace Mainline

variable {σ : Type} [Host σ] {m : Mainline σ}

theorem keys_typed (hm : m.Reachable) (hq : m.circulation.pool.takeReady? = none) {c : Client}
    {nonce : UInt32} (hc : c.ethertype = m.engine.config.ethertype)
    (hl : (m.engine.sessions.find? c.identity nonce).isSome) (keys : List Keystroke)
    {events : List (Event σ)} (ht : ∀ event ∈ events, event ≠ .tick)
    (hr : (received events).Sublist
      (c.sentSince (c.sendKeys m.engine.identity nonce keys).2)) :
    ∃ pieces, m.TypesKeys keys events pieces := by
  have lifo := hm.lifo hq events
  have ⟨left, once⟩ := lifo.perm
  rw [List.append_nil] at once
  have arrivals := m.arrivals_moves events
  have asks : ∀ raw ∈ Engine.dispatched (m.acts events), ∃ frame, m.engine.Asks raw frame := by
    intro raw hraw
    have hraw := hr.subset <| received_of_dispatched lifo hraw
    have ⟨front, hf, _, hs⟩ := c.sentSince_sendKeys m.engine.identity nonce keys
    rw [hs] at hraw
    have ⟨batch, hb, he⟩ := List.mem_map.mp hraw
    exact he ▸ Engine.asks_keyFrame hc hl (Client.length_of_mem_batches (hf.subset hb))
  have ⟨pieces, types, follows⟩ := Engine.types_run (ne_tick_of_acts ht) asks
  rw [← engine_run] at types
  rw [← handled_moves] at follows
  have hk : ((received events).flatMap keysOf).Sublist keys :=
    (hr.flatMap _).trans (c.flatMap_keysOf_sent ..).sublist
  refine ⟨pieces, types, follows, lifo, ⟨left, once⟩, arrivals, hk, fun hu => ?_,
    fun h => hm.unhurried h events⟩
  have hh := (lifo.sublist hu).trans arrivals
  exact (sublist_of_follows follows).trans <| (hh.flatMap _).trans hk

-- Two frames that are each handled before the next one arrives.
theorem keys_typed_bench :
    ∃ pool, Pool.make 2 = .ok pool ∧
      let first := Engine.Sample.keyFrame (List.replicate keysPerFrame (.plain 97))
      let second := Engine.Sample.keyFrame [.plain 98]
      let m : Mainline Bench := (start Engine.Sample.idle pool).run
        [.receive (Engine.Sample.frame .sessionStart), .take, .release]
      let events : List (Event Bench) :=
        [.receive first, .take, .release, .receive second, .take, .release]
      Unhurried (m.moves events) ∧ ∃ pieces, m.TypesKeys Engine.Sample.keys events pieces := by
  have hp := Pool.makeWith_eq (by decide : 2 ≠ 0) (by decide : maxFrameLength ≠ 0)
  have he : Engine.make Engine.Sample.config Engine.Sample.bench = .ok Engine.Sample.idle := rfl
  refine ⟨_, hp, ?_⟩
  intro first second m events
  have hm : m.Reachable := (Reachable.start he hp).run _
  have hq : m.circulation.pool.takeReady? = none := by decide +kernel
  have hc : Engine.Sample.client.ethertype = m.engine.config.ethertype := by decide +kernel
  have hl : (m.engine.sessions.find? Engine.Sample.client.identity 7).isSome := by decide +kernel
  have hi : m.engine.identity = Engine.Sample.bench.identity := by decide +kernel
  have ht : ∀ event ∈ events, event ≠ .tick := by simp [events]
  have hs := Engine.Sample.sent_keys
  rw [← hi] at hs
  have hr : received events = [first, second] := rfl
  exact ⟨by decide +kernel, keys_typed hm hq hc hl _ ht (by rw [hr, hs])⟩

end Mainline

-- Two frames that are ready together are handled the last first, so the last key comes first.
theorem Station.keys_overtaken :
    ∃ pool, Pool.make 2 = .ok pool ∧
      let sent := Engine.Sample.client.sentSince
        (Engine.Sample.client.sendKeys Engine.Sample.bench.identity 7 Engine.Sample.keys).2
      let s : Station Bench :=
        (Station.mk Engine.Sample.idle pool).run
          [.receive (Engine.Sample.frame .sessionStart), .drain]
      (s.engine.sessions.find? Engine.Sample.client.identity 7).isSome ∧
      s.engine.journal.injections = [] ∧
      ¬ ((s.run (sent.map .receive ++ [.drain])).engine.journal.injections.map
          Injection.key).Sublist Engine.Sample.keys := by
  refine ⟨_, Pool.makeWith_eq (by decide) (by decide), ?_⟩
  rw [Engine.Sample.sent_keys]
  decide +kernel

end RemoteScreen
