import RemoteScreen.Proofs.Server.Service

namespace RemoteScreen

-- The kind of frame that answers one of this kind, if any does.
def MessageKind.answer? : MessageKind → Option MessageKind
  | .ping          => some .pong
  | .statusRequest => some .statusResponse
  | .noop | .pong | .statusResponse | .sessionStart | .injectKeystroke | .screenChunk => none

namespace Engine

variable {e e' : Engine Premises} {octets : Octets} {kind : MessageKind} {received : Received}
  {station : Identity} {home : Address}

-- What a station's frame has the link send: one answer to it in one datagram, or nothing.
inductive Answers (e : Engine Premises) (octets : Octets) (station : Identity) (home : Address)
    (e' : Engine Premises) : Prop
  | nothing :
    (∀ kind received, e.Admits octets kind received → kind.answer? = none) →
    e.Hands [] e' → e'.host.link = e.host.link → Answers e octets station home e'
  | answer {kind : MessageKind} {received : Received} {f : Frame} {rest : Octets} :
    e.Admits octets kind received → kind.answer? = some f.kind → f.link.destination = station →
    e.Hands [⟨f.encode ++ rest, .ok ()⟩] e' →
    e'.host.link = { e.host.link with
      socket.sent := e.host.link.socket.sent ++ [⟨home, f.encode ++ rest⟩] } →
    Answers e octets station home e'

theorem Admits.unique {kind' : MessageKind} {received' : Received}
    (h : e.Admits octets kind received) (h' : e.Admits octets kind' received') :
    kind' = kind ∧ received' = received := by
  have he := (admits_iff.mp h').symm.trans (admits_iff.mp h)
  cases he
  exact ⟨rfl, rfl⟩

theorem Admits.source {header : LinkHeader} {body : Octets}
    (h : e.Admits (header.encode ++ body) kind received) : received.source = header.source := by
  have ⟨link, _, _, ho, _, hr⟩ := Received.exists_of_parse h.parse
  have hd := LinkHeader.decode_encode_append header body
  rw [ho, LinkHeader.decode_encode_append] at hd
  rw [hr]
  exact congrArg LinkHeader.source (Except.ok.inj hd)

-- A reply goes to where the link sends what is for the station.
theorem Replies.answers {answer : MessageKind} {payload : Octets}
    (h : e.countProcessed.Replies received answer payload e')
    (admits : e.Admits octets kind received) (hk : kind.answer? = some answer)
    (hs : received.source = station)
    (hn : e.host.link.socket.network = .open)
    (hr : ∀ (f : Frame) (rest : Octets), f.link.destination = station →
      e.host.link.route (f.encode ++ rest) = .ok home) :
    e.Answers octets station home e' := by
  have ⟨filling, buffer, he⟩ := h
  let f : Frame :=
    ⟨⟨received.source, e.identity, e.config.ethertype⟩, received.nonce, answer, payload⟩
  have ht := Link.transmit_of_route hn (hr f (Octets.zeros filling) hs)
  have hands : e.Hands [⟨f.encode ++ Octets.zeros filling, .ok ()⟩] e' := by
    rw [he]
    exact congrArg (fun r => _ ++ [Transmission.mk _ r.1]) ht
  have link : e'.host.link = { e.host.link with
      socket.sent := e.host.link.socket.sent ++ [⟨home, f.encode ++ Octets.zeros filling⟩] } := by
    rw [he]
    exact congrArg (fun r => r.2.link) ht
  exact .answer admits hk hs hands link

-- No frame but a ping or a status request has the link send anything.
theorem answers_dispatch (room : maxFrameLength ≤ e.buffer.length)
    (hn : e.host.link.socket.network = .open) {header : LinkHeader} {body : Octets}
    (ho : octets = header.encode ++ body)
    (hr : ∀ (f : Frame) (rest : Octets), f.link.destination = header.source →
      e.host.link.route (f.encode ++ rest) = .ok home) :
    e.Answers octets header.source home (e.dispatch octets) := by
  by_cases hf : e.Foreign octets
  case pos =>
    refine .nothing (fun _ _ ha => absurd ha hf.not_admits) ?_ ?_ <;> rw [hf.dispatch]
    exact .of_eq rfl
  case neg =>
    have ⟨kind, received, admits, effect⟩ := effect_of_not_foreign room hf
    have hs : received.source = header.source := Admits.source (ho ▸ admits)
    generalize e.dispatch octets = e' at effect
    have nothing (hk : kind.answer? = none) (hh : e.Hands [] e')
        (hl : e'.host.link = e.host.link) : e.Answers octets header.source home e' :=
      .nothing (fun _ _ ha => (admits.unique ha).left ▸ hk) hh hl
    cases kind
    case ping            => exact Replies.answers effect admits rfl hs hn hr
    case statusRequest   => exact Replies.answers effect admits rfl hs hn hr
    case sessionStart    => cases effect <;> exact nothing rfl (.of_eq rfl) rfl
    case injectKeystroke =>
      cases effect
      case rejected          => exact nothing rfl (.of_eq rfl) rfl
      case typed _ _ presses =>
        exact nothing rfl (.of_eq rfl) <|
          presses.keeps (P := fun p : Premises => p.link = e.host.link) (fun _ _ hp => hp) rfl
    all_goals
      have he : e' = e.countProcessed := effect
      exact nothing rfl (.of_eq (by rw [he]; rfl)) (by rw [he]; rfl)

end Engine

namespace Server

variable {s : Server} {datagram : Datagram} {l : Link} {header : LinkHeader}

-- What becomes of a datagram that is not ignored: its sender is learned, its frame is handled once,
-- and an answer to it goes to where it came from.
structure Serves (l : Link) (s : Server) (datagram : Datagram) (header : LinkHeader) : Prop where
  hears   : l.Hears datagram.octets header
  once    : (Station.drain (s.arrive datagram)).1 = 1
  engine  : (s.accept datagram).engine
    = (s.learn header.source datagram.peer).engine.dispatch datagram.octets
  free    : (s.accept datagram).pool.AllFree
  answers : (s.learn header.source datagram.peer).engine.Answers datagram.octets header.source
    (l.homeOf header.source datagram.peer) (s.accept datagram).engine

theorem accept_of_ignores (h : Station.Reachable s) (free : s.pool.AllFree)
    (hl : datagram.octets.length ≤ maxFrameLength) (hi : s.link.Ignores datagram.octets) :
    s.accept datagram = s := by
  have hs := hi.sender?_eq_none
  rw [← List.take_of_length_le hl] at hs
  have ⟨_, _, pooled⟩ := h.pooled
  have empty : s.pool.takeReady? = none :=
    pooled.shows.takeReady?_eq_none (pooled.shows.ready_eq_nil free)
  rw [accept_eq, arrive_of_none hs]
  exact congrArg Prod.snd <| Station.drainUpTo_of_empty _ empty

theorem serves_of_hears (h : Station.Reachable s) (free : s.pool.AllFree) (lasts : l.Lasts s.link)
    (network : l.socket.network = .open) (hl : datagram.octets.length ≤ maxFrameLength)
    (hears : l.Hears datagram.octets header) : Serves l s datagram header := by
  have ht : datagram.octets.take maxFrameLength = datagram.octets := List.take_of_length_le hl
  have hs := (lasts.hears hears).sender?
  rw [← ht] at hs
  have heard : Station.Reachable (s.learn header.source datagram.peer) := h.step (.change _)
  have ⟨_, pool, free', hd⟩ := Station.attends heard free hl
  rw [← ht, ← arrive_of_some hs, ht] at hd
  have ⟨body, ho⟩ := hears.begins
  have answers := Engine.answers_dispatch heard.engine.holds_frame
    (lasts.network.trans network) ho
    fun f rest hf => Link.route_learn lasts.routes header.source datagram.peer hf rest
  constructor
  case hears   => exact hears
  case once    => rw [hd]
  case engine  => rw [accept_eq, hd]
  case free    => rwa [accept_eq, hd]
  case answers =>
    rw [accept_eq, hd, ← lasts.homeOf]
    exact answers

end Server

namespace Service

theorem replies_return {s₀ : Server} (fresh : s₀.Fresh) (events : List Event)
    (settled : ((start s₀).run events).Settled) {datagram : Datagram}
    (hl : datagram.octets.length ≤ maxFrameLength) :
    let s := ((start s₀).run events).server
    (s₀.link.Ignores datagram.octets → s.accept datagram = s) ∧
    (¬ s₀.link.Ignores datagram.octets → ∃ header, Server.Serves s₀.link s datagram header) := by
  intro s
  have lasts := (lasts_start fresh).run events
  have reachable := lasts.settles settled
  constructor
  case left =>
    intro hi
    exact Server.accept_of_ignores reachable settled.free hl (lasts.link.ignores hi)
  case right =>
    intro hi
    have ⟨header, hears⟩ := Link.exists_hears hi
    have serves := Server.serves_of_hears reachable settled.free lasts.link fresh.network hl hears
    exact ⟨header, serves⟩

namespace Sample

def home : Address :=
  .v4 10 0 0 2 9000

def elsewhere : Address :=
  .v4 10 0 0 1 9000

def handled (frame : Octets) : List Event :=
  [.hear ⟨elsewhere, frame⟩, .handOver, .take, .release]

-- Stations that have a slot each, and then one more, which takes the first one's.
def crowd : List Event :=
  (List.range routeSlots).flatMap (fun i =>
    let link : LinkHeader :=
      ⟨Server.Sample.premises.link.identity, ⟨2, 0, 0, 0, 1, UInt8.ofNat i⟩, defaultEthertype⟩
    handled (Frame.mk link 7 .noop []).encode)
    ++ handled (Engine.Sample.frame .noop)

def ping : Datagram :=
  ⟨home, Engine.Sample.frame .ping⟩

end Sample

-- A ping from a station that was somewhere else before.
theorem replies_return_moved :
    let s := ((start Server.Sample.fresh).run Sample.crowd).server
    s.link.routes.size = routeSlots ∧
      s.link.routes.lookup? Engine.Sample.station = some Sample.elsewhere ∧
      (s.accept Sample.ping).link.socket.sent.map Datagram.peer = [Sample.home] ∧
      ∃ header, Server.Serves Server.Sample.fresh.link s Sample.ping header := by
  have fresh : Server.Sample.fresh.Fresh :=
    Server.fresh_of_make Server.Sample.make_engine Server.Sample.make_pool rfl rfl
  have settled : ((start Server.Sample.fresh).run Sample.crowd).Settled :=
    ⟨by decide +kernel, by decide +kernel⟩
  have hl : Sample.ping.octets.length ≤ maxFrameLength := by
    decide +kernel
  have heard : ¬ Server.Sample.fresh.link.Ignores Sample.ping.octets :=
    fun hi => absurd hi.sender?_eq_none (by decide +kernel)
  intro s
  have serves := (replies_return fresh Sample.crowd settled hl).right heard
  exact ⟨by decide +kernel, by decide +kernel, by decide +kernel, serves⟩

end Service

end RemoteScreen
