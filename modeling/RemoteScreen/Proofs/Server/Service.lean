import RemoteScreen.Proofs.Engine.Station
import RemoteScreen.Proofs.Server.Link
import RemoteScreen.Service

namespace RemoteScreen

namespace Server

variable {s : Server} {datagram : Datagram} {station : Identity}

-- A server before anything has happened to it, on a network that takes every datagram.
structure Fresh (s : Server) : Prop where
  engine  : ∃ config, Engine.make config s.engine.host = .ok s.engine
  pool    : ∃ count, Pool.make count = .ok s.pool
  routes  : s.link.routes = {}
  network : s.link.socket.network = .open

theorem fresh_of_make {config : EngineConfig} {p : Premises} {e : Engine Premises} {count : Nat}
    {pool : Pool} (he : Engine.make config p = .ok e) (hp : Pool.make count = .ok pool)
    (hr : p.link.routes = {}) (hn : p.link.socket.network = .open) : Fresh ⟨e, pool⟩ := by
  have hm := Engine.eq_of_make he
  subst hm
  exact ⟨⟨config, he⟩, ⟨count, hp⟩, hr, hn⟩

-- However a server is configured.
theorem fresh_of_start {config : ServerConfig} (h : start config .open = .ok s) : s.Fresh := by
  simp only [start, bind, Except.bind] at h
  repeat' (split at h; contradiction)
  rename_i pool hp _ engine he
  cases h
  exact fresh_of_make he hp rfl rfl

-- The server learns where a station is.
def learn (s : Server) (station : Identity) (peer : Address) : Server :=
  { s with engine.host.link.routes := s.link.routes.learn station peer }

-- Takes a datagram in. Its frame is handled when the server drains next.
def arrive (s : Server) (datagram : Datagram) : Server :=
  let (link, pool) := s.link.accept s.pool datagram
  ⟨{ s.engine with host.link := link }, pool⟩

theorem accept_eq (s : Server) (datagram : Datagram) :
    s.accept datagram = (Station.drain (s.arrive datagram)).2 :=
  rfl

theorem arrive_of_none (h : s.link.sender? (datagram.octets.take maxFrameLength) = none) :
    s.arrive datagram = s := by
  simp only [arrive, Link.accept, h]
  rfl

theorem arrive_of_some (h : s.link.sender? (datagram.octets.take maxFrameLength) = some station) :
    s.arrive datagram
      = (Station.receive (s.learn station datagram.peer)
          (datagram.octets.take maxFrameLength)).2 := by
  simp only [arrive, Link.accept, h]
  rfl

end Server

namespace Service

variable {s : Service} {l : Link}

-- The receiver has nothing in hand, and no slot of the pool is taken.
structure Settled (s : Service) : Prop where
  idle : s.incoming = none
  free : s.server.pool.AllFree

-- What a service with this link in the beginning has kept.
structure Lasts (l : Link) (s : Service) : Prop where
  reachable : s.mainline.Reachable
  capacity  : s.server.pool.slotCapacity = maxFrameLength
  link      : l.Lasts s.premises.link

theorem lasts_start {s : Server} (h : s.Fresh) : (start s).Lasts s.link := by
  have ⟨_, he⟩ := h.engine
  have ⟨_, hp⟩ := h.pool
  constructor
  case reachable => exact .start he hp
  case capacity  => exact (Station.reachable_of_make he hp).capacity
  case link      => exact ⟨rfl, rfl, rfl, rfl, h.routes ▸ Routes.wellFormed_empty⟩

-- For a step of the mainline there is only the link to look at.
theorem Lasts.advance (h : s.Lasts l) (event : Mainline.Event Premises) (incoming : Option Octets)
    (link : l.Lasts (s.mainline.step event).engine.host.link) :
    Lasts l ⟨s.mainline.step event, incoming⟩ where
  reachable := h.reachable.step event
  capacity  := (h.reachable.slotCapacity_run [event]).trans h.capacity
  link      := link

theorem Lasts.take (h : s.Lasts l) : l.Lasts (s.mainline.step .take).engine.host.link := by
  rw [Mainline.step]
  split
  case h_1 => exact h.link
  case h_2 lease _ _ =>
    exact Engine.dispatch_keeps (P := fun p : Premises => l.Lasts p.link)
      h.reachable.engine.holds_frame (fun frame _ hp => hp.transmit frame) (fun _ _ hp => hp)
      lease.contents h.link

theorem Lasts.tick (h : s.Lasts l) : l.Lasts (s.mainline.step .tick).engine.host.link :=
  Engine.tick_keeps (P := fun p : Premises => l.Lasts p.link)
    (fun frame _ hp => hp.transmit frame) h.link

theorem Lasts.hear (h : s.Lasts l) (datagram : Datagram) : (s.hear datagram).Lasts l := by
  rw [Service.hear]
  split
  case h_1 station _ _ => exact h.advance (.change _) _ (h.link.learn station datagram.peer)
  case h_2             => exact h

theorem Lasts.handOver (h : s.Lasts l) : s.handOver.Lasts l := by
  rw [Service.handOver]
  split
  case h_1 => exact h
  case h_2 => exact h.advance (.receive _) none h.link

theorem Lasts.step (h : s.Lasts l) (event : Event) : (s.step event).Lasts l := by
  cases event
  case hear datagram => exact h.hear datagram
  case handOver      => exact h.handOver
  case take          => exact h.advance .take _ h.take
  case release       => exact h.advance .release _ h.link
  case tick          => exact h.advance .tick _ h.tick
  case paint         => exact h.advance (.change _) _ h.link
  case clock         => exact h.advance (.change _) _ h.link

theorem Lasts.run (h : s.Lasts l) (events : List Event) : (s.run events).Lasts l := by
  induction events generalizing s
  case nil             => exact h
  case cons event _ hi => exact hi (h.step event)

theorem Lasts.settles (h : s.Lasts l) (settled : s.Settled) : Station.Reachable s.server :=
  Station.reachable_of_mainline h.reachable settled.free h.capacity

-- A datagram that is not held up has arrived as the server takes it.
theorem server_handOver_hear (idle : s.incoming = none) (datagram : Datagram) :
    (s.hear datagram).handOver.server = s.server.arrive datagram := by
  have hp : s.premises.link = s.server.link := rfl
  cases hs : s.server.link.sender? (datagram.octets.take maxFrameLength)
  case none =>
    rw [Server.arrive_of_none hs]
    simp only [hear, handOver, idle, hp, hs]
  case some =>
    rw [Server.arrive_of_some hs]
    simp only [hear, handOver, idle, hp, hs]
    rfl

end Service

end RemoteScreen
