import RemoteScreen.Proofs.Server.Premises
import RemoteScreen.Proofs.Server.Routes

namespace RemoteScreen.Link

variable {l l' : Link} {octets : Octets}

-- Why a link takes no notice of a datagram.
inductive Ignores (l : Link) : Octets → Prop
  | short {octets : Octets} : octets.length < linkHeaderLength → Ignores l octets
  | ethertype {header : LinkHeader} {body : Octets} :
    header.ethertype ≠ l.ethertype → Ignores l (header.encode ++ body)
  | own {header : LinkHeader} {body : Octets} :
    header.source = l.identity → Ignores l (header.encode ++ body)

theorem Ignores.sender?_eq_none (h : l.Ignores octets) : l.sender? octets = none := by
  cases h
  case short hl =>
    have ht : LinkHeader.take? octets = none := by
      rw [Option.eq_none_iff_forall_ne_some]
      intro ⟨header, rest⟩ ht
      rw [LinkHeader.eq_of_take? ht, List.length_append, LinkHeader.length_encode] at hl
      exact Nat.not_lt.mpr (Nat.le_add_right ..) hl
    rw [sender?, LinkHeader.decode, ht]
  case ethertype hn =>
    rw [sender?, LinkHeader.decode_encode_append]
    simp [hn]
  case own hs =>
    rw [sender?, LinkHeader.decode_encode_append]
    simp [hs]

-- A frame that a station sent to this network, and that is not the link's own.
structure Hears (l : Link) (octets : Octets) (header : LinkHeader) : Prop where
  begins    : ∃ body, octets = header.encode ++ body
  ethertype : header.ethertype = l.ethertype
  source    : header.source ≠ l.identity

theorem exists_hears (h : ¬ l.Ignores octets) : ∃ header, l.Hears octets header := by
  have hl : linkHeaderLength ≤ octets.length := Nat.le_of_not_lt fun hl => h (.short hl)
  have ⟨header, body, ho⟩ := LinkHeader.exists_encode octets hl
  subst ho
  have ethertype : header.ethertype = l.ethertype :=
    Decidable.byContradiction fun hn => h (.ethertype hn)
  exact ⟨header, ⟨body, rfl⟩, ethertype, fun hs => h (.own hs)⟩

theorem Hears.sender? {header : LinkHeader} (h : l.Hears octets header) :
    l.sender? octets = some header.source := by
  obtain ⟨⟨body, rfl⟩, ethertype, source⟩ := h
  rw [Link.sender?, LinkHeader.decode_encode_append]
  exact if_pos ⟨ethertype, source⟩

-- What a link that was `l` once has kept.
structure Lasts (l l' : Link) : Prop where
  identity  : l'.identity = l.identity
  ethertype : l'.ethertype = l.ethertype
  broadcast : l'.broadcast = l.broadcast
  network   : l'.socket.network = l.socket.network
  routes    : l'.routes.WellFormed

theorem Lasts.ignores (h : l.Lasts l') (hi : l.Ignores octets) : l'.Ignores octets := by
  cases hi
  case short hl     => exact .short hl
  case ethertype hn => exact .ethertype (h.ethertype ▸ hn)
  case own hs       => exact .own (hs.trans h.identity.symm)

theorem Lasts.hears {header : LinkHeader} (h : l.Lasts l') (hh : l.Hears octets header) :
    l'.Hears octets header :=
  ⟨hh.begins, hh.ethertype.trans h.ethertype.symm, h.identity ▸ hh.source⟩

theorem Lasts.learn (h : l.Lasts l') (station : Identity) (peer : Address) :
    l.Lasts { l' with routes := l'.routes.learn station peer } :=
  ⟨h.identity, h.ethertype, h.broadcast, h.network, h.routes.learn station peer⟩

theorem Lasts.transmit {p : Premises} (h : l.Lasts p.link) (frame : Octets) :
    l.Lasts (Host.transmit frame p).2.link := by
  have ⟨sent, hs⟩ := (Premises.Posts.refl p).transmit frame
  rw [hs]
  exact ⟨h.identity, h.ethertype, h.broadcast, h.network, h.routes⟩

-- Where to send what is for a station that was heard from at an address.
def homeOf (l : Link) (station : Identity) (peer : Address) : Address :=
  if station = .broadcast then l.broadcast else peer

theorem Lasts.homeOf (h : l.Lasts l') (station : Identity) (peer : Address) :
    l'.homeOf station peer = l.homeOf station peer := by
  rw [Link.homeOf, Link.homeOf, h.broadcast]

-- A station that was heard from just now is found there, whoever else the link has heard from.
theorem route_learn (hr : l.routes.WellFormed) (station : Identity) (peer : Address) {f : Frame}
    (hf : f.link.destination = station) (rest : Octets) :
    route { l with routes := l.routes.learn station peer } (f.encode ++ rest)
      = .ok (l.homeOf station peer) := by
  have hd : LinkHeader.decode (f.encode ++ rest) = .ok f.link := by
    rw [Frame.encode, List.append_assoc]
    exact LinkHeader.decode_encode_append ..
  rw [route, hd]
  simp only [hf, hr.lookup?_learn, homeOf]
  split <;> rfl

theorem transmit_of_route {p : Premises} {frame : Octets} {home : Address}
    (hn : p.link.socket.network = .open) (hr : p.link.route frame = .ok home) :
    Host.transmit frame p = (.ok (),
      { p with link.socket.sent := p.link.socket.sent ++ [⟨home, frame⟩] }) := by
  have hs : p.link.transmit frame = (.ok (),
      { p.link with socket.sent := p.link.socket.sent ++ [⟨home, frame⟩] }) := by
    simp [transmit, hr, Socket.send, hn, Network.refusal?]
  simp only [Host.transmit, Premises.transmit, hs]

end RemoteScreen.Link
