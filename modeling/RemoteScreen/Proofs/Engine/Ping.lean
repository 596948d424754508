import RemoteScreen.Proofs.Engine.Echo
import RemoteScreen.Proofs.Engine.Station
import RemoteScreen.Proofs.Frame.Canonical

namespace RemoteScreen

-- How much payload a frame carries: as much as it declares, has arrived and can be taken.
def carried (raw : Octets) : Nat :=
  min (raw.slice 22 2).number (min (raw.length - 26) 1488)

-- A ping for the station of this identity, or for all, with whatever payload length.
structure Pings (own : Identity) (tag : UInt16) (raw : Octets) : Prop where
  long        : 26 ≤ raw.length
  short       : raw.length ≤ 1514
  destination : raw.slice 0 6 = own.octets ∨ raw.slice 0 6 = Identity.broadcast.octets
  ethertype   : raw.slice 12 2 = Octets.ofWord16 tag
  signature   : raw.slice 14 4 = [0x7b, 0x6e, 0x05, 0xb0]
  kind        : raw.slice 24 2 = [0, 1]

-- The pong of that station to the ping, octet by octet, and what a client takes it for.
structure Pongs (own : Identity) (tag : UInt16) (ping pong : Octets) : Prop where
  length        : pong.length = ping.length
  destination   : pong.slice 0 6 = ping.slice 6 6
  source        : pong.slice 6 6 = own.octets
  ethertype     : pong.slice 12 2 = Octets.ofWord16 tag
  signature     : pong.slice 14 4 = [0x7b, 0x6e, 0x05, 0xb0]
  nonce         : pong.slice 18 4 = ping.slice 18 4
  payloadLength : (pong.slice 22 2).number = carried ping
  kind          : pong.slice 24 2 = [0, 2]
  payload       : pong.slice 26 (carried ping) = ping.slice 26 (carried ping)
  filling       : ∀ o ∈ pong.drop (26 + carried ping), o = 0
  decoded       : ∃ frame, Codec.decode ⟨tag⟩ pong = (some frame, []) ∧
    frame.kind = .pong ∧ frame.payload = ping.slice 26 (carried ping)

variable {own : Identity} {tag : UInt16} {raw body : Octets} {link : LinkHeader}
  {header : ProtocolHeader} {frame : Received}

-- The pong to a frame, once that is read.
def Received.pong (frame : Received) (own : Identity) (tag : UInt16) : Octets :=
  let f := Frame.mk ⟨frame.source, own, tag⟩ frame.nonce .pong frame.payload
  f.encode ++ Octets.zeros (frame.length - f.encodedLength)

theorem carried_eq (link : LinkHeader) (header : ProtocolHeader) (body : Octets) :
    carried (link.encode ++ (header.encode ++ body))
      = min header.payloadLength.toNat (min body.length 1488) := by
  have hb : (link.encode ++ (header.encode ++ body)).length - 26 = body.length :=
    congrArg List.length (Octets.drop_headers link header body)
  rw [carried, hb, Octets.slice_payloadLength, Octets.number_ofWord16]

theorem Pings.pongs (h : Pings own tag raw) (hp : Received.parse raw = .ok frame) :
    Pongs own tag raw (frame.pong own tag) := by
  have short := h.short
  obtain ⟨link, header, body, rfl, -, rfl⟩ := Received.exists_of_parse hp
  let raw := link.encode ++ (header.encode ++ body)
  let payload := body.take (min header.payloadLength.toNat maxPayloadLength)
  let f : Frame := ⟨⟨link.source, own, tag⟩, header.nonce, .pong, payload⟩
  let filling := Octets.zeros (raw.length - f.encodedLength)
  have count : payload.length = carried raw := by
    rw [carried_eq, List.length_take, maxPayloadLength, maxFrameLength, headerLength,
      linkHeaderLength, protocolHeaderLength]
    omega
  have cut : Octets.slice raw 26 (carried raw) = payload := by
    rw [Octets.slice, Octets.drop_headers, ← count]
    exact (List.prefix_iff_eq_take.mp (List.take_prefix ..)).symm
  have length : f.encodedLength + filling.length = raw.length := by
    have fits : f.encodedLength ≤ raw.length := by
      have hl : payload.length ≤ body.length := List.length_take_le' ..
      simp only [Frame.encodedLength, f, raw, List.length_append, LinkHeader.length_encode,
        ProtocolHeader.length_encode, headerLength]
      omega
    rw [Octets.length_zeros]
    exact Nat.add_sub_of_le fits
  have pong : f.encode ++ filling = f.link.encode ++
      ((ProtocolHeader.signed f.nonce (UInt16.ofNat payload.length) f.kind.number).encode ++
        (payload ++ filling)) := by
    simp [Frame.encode, f]
  have behind : (f.encode ++ filling).drop 26 = payload ++ filling := by
    rw [pong, Octets.drop_headers]
  have read : Codec.read? ⟨tag⟩ (f.encode ++ filling) = some f := by
    refine Codec.read?_encode_filled filling rfl ?_
    exact Nat.le_trans (Nat.le_of_eq length) (Nat.le_trans short (by decide))
  change Pongs own tag raw (f.encode ++ filling)
  constructor
  case length        => rw [List.length_append, f.length_encode, length]
  case destination   => rw [pong, Octets.slice_destination, Octets.slice_source]
  case source        => rw [pong, Octets.slice_source]
  case ethertype     => rw [pong, Octets.slice_ethertype]
  case signature     => rw [pong]; exact Frame.signed_iff.mpr rfl
  case nonce         => rw [pong, Octets.slice_nonce, Octets.slice_nonce]; rfl
  case payloadLength =>
    have hl : payload.length < UInt16.size := by
      rw [count, carried_eq, UInt16.size]
      omega
    rw [pong, Octets.slice_payloadLength, Octets.number_ofWord16, ← count]
    exact UInt16.toNat_ofNat_of_lt' hl
  case kind          =>
    have hk : Octets.ofWord16 MessageKind.pong.number = [0, 2] := by
      decide
    rw [pong, Octets.slice_kind, ← hk]
    rfl
  case payload       => rw [cut, Octets.slice, behind, ← count, List.take_left]
  case filling       =>
    rw [← List.drop_drop, behind, ← count, List.drop_left]
    exact fun o ho => List.eq_of_mem_replicate ho
  case decoded       => exact ⟨f, congrArg (·, []) read, rfl, cut.symm⟩

namespace Engine

variable {σ : Type} [Host σ] {e : Engine σ}

omit [Host σ] in
-- Every engine of the identity and the tag takes a ping for what its fields say.
theorem admits_ping (h : Pings own tag raw) : ∃ frame, Received.parse raw = .ok frame ∧
    ∀ e : Engine σ, e.identity = own → e.config.ethertype = tag → e.Admits raw .ping frame := by
  obtain ⟨link, header, body, rfl⟩ := Received.exists_headers h.long
  have signature := Frame.signed_iff.mp h.signature
  have destination := h.destination
  have ethertype := h.ethertype
  have kind := h.kind
  rw [Octets.slice_destination, Identity.octets_inj, Identity.octets_inj] at destination
  rw [Octets.slice_ethertype, Octets.ofWord16_inj] at ethertype
  rw [Octets.slice_kind] at kind
  have kind : header.kind = MessageKind.ping.number := Octets.ofWord16_inj.mp kind
  have parse : Received.parse (link.encode ++ (header.encode ++ body)) = .ok _ :=
    Received.parseUpTo_eq_ok signature
  refine ⟨_, parse, fun e hi ht => ⟨parse, signature, ?_, ?_, ?_⟩⟩
  case refine_1 => exact ethertype.trans ht.symm
  case refine_2 => exact hi ▸ destination
  case refine_3 => exact kind ▸ MessageKind.ofNumber?_number .ping

theorem hands_pong (room : maxFrameLength ≤ e.buffer.length) (hl : raw.length ≤ maxFrameLength)
    (h : e.Admits raw .ping frame) :
    ∃ outcome, e.Hands [⟨frame.pong e.identity e.config.ethertype, outcome⟩] (e.dispatch raw) := by
  have ⟨_, _, _, _, _, hf⟩ := Received.exists_of_parse h.parse
  have length : frame.length = raw.length := congrArg Received.length hf
  have fits : headerLength + frame.payload.length ≤ e.buffer.length := by
    have hp := Received.length_payload_le h.parse
    rw [maxPayloadLength, maxFrameLength, headerLength, linkHeaderLength, protocolHeaderLength] at *
    omega
  let f := Frame.mk ⟨frame.source, e.identity, e.config.ethertype⟩ frame.nonce .pong frame.payload
  let room := e.buffer.length - f.encodedLength
  -- The buffer holds all the zeros that are asked for.
  have filling : min (frame.length - f.encodedLength) room = frame.length - f.encodedLength := by
    omega
  have handled : e.countProcessed.route .ping frame =
      { e.countProcessed with buffer := f.encode ++ Octets.zeros room }.transmit
        (frame.pong e.identity e.config.ethertype) := by
    change _ = transmit _ (f.encode ++ Octets.zeros (frame.length - f.encodedLength))
    rw [← filling]
    exact answer_eq (e := e.countProcessed) fits frame .pong frame.length
  rw [h.dispatch, handled]
  exact ⟨_, rfl⟩

end Engine

namespace Mainline

variable {σ : Type} [Host σ] {m : Mainline σ}

-- A frame that finds room is the next that the mainline takes.
theorem Reachable.takes (h : m.Reachable) (hr : (m.circulation.pool.receive raw).1 = .ok ()) :
    (m.step (.receive raw)).act? .take = some (.dispatch raw) := by
  obtain ⟨count, s, _, hc, shows⟩ := h.pooled
  have ha := shows.answer_eq (.receive raw)
  rw [Circulation.answer, hr, Stacks.answer] at ha
  cases hs : s.lease raw.length
  case error => rw [hs] at ha; contradiction
  case ok =>
    obtain ⟨index, free, hl, hf, -⟩ := Stacks.lease_eq_ok hs
    obtain ⟨_, arrived⟩ := shows.arrives hf hl
    obtain ⟨lease, p, ht, hx, _⟩ := arrived.leaves hc rfl
    have ht : (m.step (.receive raw)).circulation.pool.takeReady? = some (lease, p) := ht
    rw [act?, ht]
    exact congrArg (fun contents => some (Engine.Event.dispatch contents)) hx

-- A ping gets one pong, whenever its turn comes, from every station of the identity and the tag.
-- The pong is the same for every frame limit and for whatever is left in the buffer.
theorem ping_echoed (ping : Pings own tag raw) :
    ∃ pong, Pongs own tag raw pong ∧ ∀ m : Mainline σ, m.Reachable →
      m.engine.identity = own → m.engine.config.ethertype = tag →
      ((m.circulation.pool.receive raw).1 = .ok () →
        (m.step (.receive raw)).act? .take = some (.dispatch raw)) ∧
      (m.act? .take = some (.dispatch raw) → ∀ buffer, buffer.length = m.engine.buffer.length →
        ∃ outcome, m.engine.Hands [⟨pong, outcome⟩]
          ({ m with engine.buffer := buffer }.step .take).engine) := by
  have ⟨frame, parse, admits⟩ := Engine.admits_ping (σ := σ) ping
  refine ⟨frame.pong own tag, ping.pongs parse, fun m reachable hi ht =>
    ⟨reachable.takes, fun turn buffer hb => ?_⟩⟩
  let m' : Mainline σ := { m with engine.buffer := buffer }
  have room : maxFrameLength ≤ m'.engine.buffer.length := hb ▸ reachable.engine.holds_frame
  have ⟨outcome, hands⟩ := Engine.hands_pong room ping.short (admits m'.engine hi ht)
  have dispatched : (m'.step .take).engine = m'.engine.dispatch raw := by
    have turn : m'.act? .take = some (.dispatch raw) := turn
    rw [engine_step, turn]
    rfl
  rw [dispatched, ← hi, ← ht]
  exact ⟨outcome, hands⟩

-- Two of three octets are declared. The station sends chunks of the least size.
theorem ping_echoed_padded :
    let raw := LinkHeader.encode ⟨Engine.Sample.bench.identity, Engine.Sample.station, 0x80ab⟩ ++
      ((ProtocolHeader.signed 7 2 MessageKind.ping.number).encode ++ [65, 66, 67])
    ∃ pool, Pool.make 2 = .ok pool ∧ ∃ pong,
      Pongs Engine.Sample.bench.identity 0x80ab raw pong ∧ carried raw = 2 ∧
      let m := (start Engine.Sample.idle pool).step (.receive raw)
      ∃ outcome, m.engine.Hands [⟨pong, outcome⟩]
        ({ m with engine.buffer := List.replicate maxFrameLength 255 }.step .take).engine := by
  intro raw
  have hp := Pool.makeWith_eq (by decide : 2 ≠ 0) (by decide : maxFrameLength ≠ 0)
  have ping : Pings Engine.Sample.bench.identity 0x80ab raw := by
    constructor
    case destination => exact .inl rfl
    all_goals decide
  have start : (start Engine.Sample.idle _).Reachable :=
    .start (rfl : Engine.make Engine.Sample.config Engine.Sample.bench = .ok Engine.Sample.idle) hp
  have ⟨pong, pongs, echoed⟩ := ping_echoed (σ := Bench) ping
  have turn := (echoed _ start rfl rfl).left rfl
  have buffer : (List.replicate maxFrameLength 255 : Octets).length
      = (Octets.zeros maxFrameLength).length := by
    rw [List.length_replicate, Octets.length_zeros]
  have hands := (echoed _ (start.step (.receive raw)) rfl rfl).right turn _ buffer
  exact ⟨_, hp, pong, pongs, by decide, hands⟩

end Mainline

end RemoteScreen
